import ScriptFold.Proofs.Spanning.Statement
import ScriptFold.Proofs.Value.Search
import ScriptFold.Proofs.Whole.Basic

/-!
# Expressions and patterns are read as whole trees

Every reader of the grammar builds whole trees if the rules it refers to do.  The one thing that
the tokens decide is the head of a case, behind which a colon has to be found again: tokens stand
in order, so the colon that is read stands behind the test.
-/

namespace ScriptFold

/-- A token that is said to be a colon is one in the text of a source. -/
def Token.IsColonIn (source : Source) (token : Token) : Prop :=
  token.type = .colon → source.text[token.start]? = some (.char ':')

namespace Grammar

/-- The tokens left are of a source and stand in order, and the colons among them are there. -/
structure State.Fits (source : Source) (state : State) : Prop where
  isSource : state.source = source
  orderly : state.Orderly
  colons : All (Token.IsColonIn source) state.tokens

instance {source : Source} : Lasting (State.Fits source) where
  noIn _ fits := ⟨fits.isSource, fits.orderly, fits.colons⟩
  advance := by
    intro state next token fits ran
    have passes := passes_of_advance fits.orderly ran
    refine ⟨(advance_drops ran).1.trans fits.isSource, passes.orderly, fun other there => ?_⟩
    exact fits.colons other (passes.drops other there)

/-- Whatever a reader gives for the tokens of a source has a property. -/
abbrev Obtains {α : Type} (source : Source) (reader : Reader α) (holds : α → Prop) : Prop :=
  Leads (State.Fits source) reader holds (State.Fits source)

/-! ### Trees that are read -/

/-- Whole nodes that fit the positions of a node of some kind, from `start` on. -/
def FitFrom (kind : Kind) (start : Nat) (nodes : List Node) : Prop :=
  ∀ index node, nodes[index]? = some node → node.Whole ∧ kind.takes (start + index) node = true

variable {source : Source} {rules : Rules} {kind : Kind} {flags : Flags} {start : Nat}
variable {node first : Node} {nodes rest : List Node} {token : Token}

namespace FitFrom

theorem nil : FitFrom kind start [] := by
  intro index node found
  cases found

theorem cons (whole : first.Whole) (takes : kind.takes start first = true)
    (fits : FitFrom kind (start + 1) rest) : FitFrom kind start (first :: rest) := by
  intro index node found
  cases index with
  | zero =>
      cases found
      exact ⟨whole, takes⟩
  | succ index =>
      rw [List.getElem?_cons_succ] at found
      have fit := fits index node found
      rwa [Nat.add_right_comm, Nat.add_assoc] at fit

theorem of_all (all : All Node.Whole nodes)
    (takes : ∀ index node, node ∈ nodes → kind.takes (start + index) node = true) :
    FitFrom kind start nodes := by
  intro index node found
  have there := List.mem_of_getElem? found
  exact ⟨all node there, takes index node there⟩

/-- Nodes for a kind that takes any. -/
theorem free (all : All Node.Whole nodes) (free : ∀ index node, kind.takes index node = true) :
    FitFrom kind start nodes :=
  .of_all all fun index node _ => free (start + index) node

theorem whole (fits : FitFrom kind start nodes) : All Node.Whole nodes := by
  intro node there
  obtain ⟨index, found⟩ := List.getElem?_of_mem there
  exact (fits index node found).1

end FitFrom

theorem all_seatFrom {seat : Nat} (all : All Node.Whole nodes) :
    AllWhole (Node.seatFrom seat nodes) := by
  intro child there
  apply all
  rw [← map_node_seatFrom seat nodes]
  exact List.mem_map_of_mem there

theorem read_whole {span : Span} (noList : Printer.listHead? kind = none)
    (counts : kind.counts nodes.length = true) (fits : FitFrom kind 0 nodes) :
    (Node.read kind flags source span nodes).Whole := by
  apply Node.Whole.tree
  · refine ⟨?_, ?_, ?_⟩
    · rw [length_seatFrom]
      exact counts
    · intro index child found
      rw [getElem?_seatFrom] at found
      obtain ⟨node, isNode, rfl⟩ := Option.map_eq_some_iff.mp found
      have fit := (fits index node isNode).2
      rwa [Nat.zero_add] at fit
    · intro head isHead
      rw [noList] at isHead
      cases isHead
  · exact all_seatFrom fits.whole

theorem reshape_whole (noList : Printer.listHead? kind = none)
    (counts : kind.counts nodes.length = true) (fits : FitFrom kind 0 nodes) :
    (reshape node kind nodes).Whole := by
  have made : (Node.made kind nodes).Whole := by
    apply Node.Whole.made counts
    · intro index inner found
      have fit := (fits index inner found).2
      rwa [Nat.zero_add] at fit
    · exact fits.whole
  unfold reshape
  split
  · exact read_whole noList counts fits
  · exact made

/-- A whole node that stands where it was read. -/
structure ReadWhole (node : Node) : Prop where
  whole : node.Whole
  placed : (Printer.formerSpan? node.toFormer).isSome = true

/-- A whole node of some kind that stands where it was read. -/
structure ReadAs (kind : Kind) (node : Node) : Prop extends ReadWhole node where
  isKind : node.kind? = some kind

/-- A whole node that stays where it is. -/
structure ReadSteady (node : Node) : Prop where
  whole : node.Whole
  steady : node.isSteady = true

theorem ReadAs.is (readAs : ReadAs kind node) : node.isKind kind = true :=
  beq_iff_eq.mpr readAs.isKind

theorem ReadAs.steady (readAs : ReadAs kind node) (isSteady : kind.isSteady = true) :
    ReadSteady node := by
  refine ⟨readAs.whole, ?_⟩
  rw [Node.isSteady, readAs.isKind]
  exact isSteady

theorem finishWith_reads (noList : Printer.listHead? kind = none)
    (counts : kind.counts nodes.length = true) (fits : FitFrom kind 0 nodes) :
    Obtains source (finishWith flags kind nodes token) (ReadAs kind) :=
  .after fun _ => .of_pure ⟨⟨read_whole noList counts fits, rfl⟩, rfl⟩

theorem finish_reads (noList : Printer.listHead? kind = none)
    (counts : kind.counts nodes.length = true) (fits : FitFrom kind 0 nodes) :
    Obtains source (finish kind nodes token) (ReadAs kind) :=
  finishWith_reads noList counts fits

/-- A list of statements, behind a head or alone, that stands where its statements were read. -/
theorem list_whole {head : Nat} {span : Span} (isHead : Printer.listHead? kind = some head)
    (free : ∀ index node, kind.takes index node = true) (counts : kind.counts nodes.length = true)
    (all : All Node.Whole nodes) (placed : All ReadWhole (nodes.drop head))
    (caseHead : head = 1 → Place.HasCaseHead ⟨source, span, nodes.map Node.toFormer⟩) :
    (Node.read kind flags source span nodes).Whole := by
  have listed : ∀ other, Printer.listHead? kind = some other → ∀ known,
      some (Place.mk source span (nodes.map Node.toFormer)) = some known →
        known.Lists other (Node.seatFrom 0 nodes) := by
    intro other isOther known isPlace
    rw [isHead] at isOther
    cases isOther
    cases isPlace
    constructor
    · intro former there
      rw [← List.map_drop] at there
      obtain ⟨node, isNode, rfl⟩ := List.mem_map.mp there
      exact (placed node isNode).placed
    · intro child there seat isSeat
      obtain ⟨index, found⟩ := List.getElem?_of_mem (List.mem_of_mem_drop there)
      rw [getElem?_seatFrom] at found
      obtain ⟨node, isNode, rfl⟩ := Option.map_eq_some_iff.mp found
      cases isSeat
      rw [List.length_map, Nat.zero_add]
      exact (List.getElem?_eq_some_iff.mp isNode).1
    · exact caseHead
  apply Node.Whole.tree
  · refine ⟨?_, fun index child _ => free index child.node, listed⟩
    rw [length_seatFrom]
    exact counts
  · exact all_seatFrom all

/-- Such a list is read by the reader that finishes it. -/
theorem list_reads {head : Nat} (isHead : Printer.listHead? kind = some head)
    (free : ∀ index node, kind.takes index node = true) (counts : kind.counts nodes.length = true)
    (all : All Node.Whole nodes) (placed : All ReadWhole (nodes.drop head))
    (caseHead : head = 1 → ∀ span : Span, span.start = token.start →
      Place.HasCaseHead ⟨source, span, nodes.map Node.toFormer⟩) :
    Obtains source (finishWith flags kind nodes token) (ReadAs kind) := by
  intro state result left fits ran
  cases ran
  rw [← fits.isSource] at caseHead
  refine ⟨⟨⟨?_, rfl⟩, rfl⟩, fits⟩
  exact list_whole isHead free counts all placed fun isOne => caseHead isOne _ rfl

/-- Rules that read whole trees. -/
structure ReadsWhole (source : Source) (rules : Rules) : Prop where
  spanning : SpanningRules rules
  statement : Obtains source rules.statement ReadWhole
  expression : Obtains source rules.expression ReadWhole
  assignment : Obtains source rules.assignment ReadWhole
  binary : ∀ least, Obtains source (rules.binary least) ReadWhole
  unary : Obtains source rules.unary ReadWhole
  leftHandSide : Obtains source rules.leftHandSide ReadWhole
  construction : Obtains source rules.construction ReadWhole
  target : Obtains source rules.target ReadSteady

namespace Obtains

variable {reader : Reader Node}

theorem ofKind (gives : Obtains source reader (ReadAs kind)) : Obtains source reader ReadWhole :=
  gives.mono fun _ readAs => readAs.toReadWhole

theorem whole (gives : Obtains source reader ReadWhole) : Obtains source reader Node.Whole :=
  gives.mono fun _ read => read.whole

theorem steady (gives : Obtains source reader (ReadAs kind)) (isSteady : kind.isSteady = true) :
    Obtains source reader ReadSteady :=
  gives.mono fun _ readAs => readAs.steady isSteady

theorem absent : Obtains source (pure .absent) Node.Whole :=
  .of_pure .absent

theorem steadyAbsent : Obtains source (pure .absent) ReadSteady :=
  .of_pure ⟨.absent, rfl⟩

end Obtains

/-! ### Names, keys and patterns -/

theorem bindingOf_obtains (token : Token) : Obtains source (bindingOf token) (ReadAs .binding) :=
  finish_reads rfl rfl (.cons .leaf rfl .nil)

theorem propertyKey_obtains (reads : ReadsWhole source rules) :
    Obtains source (propertyKey rules) Node.Whole := by
  apply Leads.after
  intro token
  split
  · exact .after fun _ => .of_pure .leaf
  · split
    case h_1 => exact .after fun _ => .of_pure .leaf
    case h_2 | h_3 | h_4 =>
      exact .after fun _ => (finish_reads rfl rfl (.cons .leaf rfl .nil)).ofKind.whole
    case h_5 =>
      apply Leads.after
      intro _
      apply Leads.bind reads.assignment.allowingIn
      intro key keyIs
      exact .after fun _ => (finish_reads rfl rfl (.cons keyIs.whole rfl .nil)).ofKind.whole
    case h_6 => exact .of_failAt

theorem restElement_obtains (reads : ReadsWhole source rules) (start : Token) :
    Obtains source (restElement rules start) (ReadAs .rest) :=
  .bind reads.target fun _ targetIs => finish_reads rfl rfl (.cons targetIs.whole rfl .nil)

theorem parameter_obtains (reads : ReadsWhole source rules) :
    Obtains source (parameter rules) Node.Whole := by
  apply Leads.after
  intro start
  apply Leads.after
  intro isRest
  split
  · exact (restElement_obtains reads start).ofKind.whole
  · apply Leads.bind reads.target
    intro target targetIs
    apply Leads.after
    intro hasDefault
    split
    · apply Leads.bind reads.assignment
      intro default defaultIs
      exact (finish_reads rfl rfl
        (.cons targetIs.whole rfl (.cons defaultIs.whole rfl .nil))).ofKind.whole
    · exact .of_pure targetIs.whole

theorem arrayPattern_obtains (reads : ReadsWhole source rules) :
    Obtains source (arrayPattern rules) (ReadAs .arrayPattern) := by
  apply Leads.after
  intro start
  apply Leads.bind (Leads.holedList .absent (parameter_obtains reads)).allowingIn
  intro elements elementsAre
  exact .after fun _ => finish_reads rfl rfl (.free elementsAre fun _ _ => rfl)

theorem patternProperty_obtains (reads : ReadsWhole source rules) :
    Obtains source (patternProperty rules) (ReadAs .patternProperty) := by
  apply Leads.after
  intro start
  apply Leads.bind (propertyKey_obtains reads)
  intro key keyIs
  apply Leads.after
  intro hasTarget
  split
  · apply Leads.bind (parameter_obtains reads)
    intro target targetIs
    exact finish_reads rfl rfl (.cons keyIs rfl (.cons targetIs rfl .nil))
  · split
    · exact .after fun _ => .of_failAt
    · apply Leads.bind (finish_reads rfl rfl (.cons keyIs rfl .nil))
      intro name (nameIs : ReadAs .binding name)
      apply Leads.after
      intro hasDefault
      have ends : ∀ target, target.Whole → Obtains source
          (finishWith { shorthand := true } .patternProperty [key, target] start)
          (ReadAs .patternProperty) := fun target targetIs =>
        finishWith_reads rfl rfl (.cons keyIs rfl (.cons targetIs rfl .nil))
      split
      · apply Leads.bind reads.assignment
        intro default defaultIs
        apply Leads.bind (finish_reads rfl rfl
          (.cons nameIs.whole rfl (.cons defaultIs.whole rfl .nil))).ofKind.whole ends
      · exact ends name nameIs.whole

private theorem objectPattern_obtains (reads : ReadsWhole source rules) :
    Obtains source (objectPattern rules) (ReadAs .objectPattern) := by
  have item : Obtains source (do
      let first ← current
      if ← accept .ellipsis then restElement rules first else patternProperty rules)
      Node.Whole := by
    apply Leads.after
    intro first
    apply Leads.after
    intro isRest
    split
    · exact (restElement_obtains reads first).ofKind.whole
    · exact (patternProperty_obtains reads).ofKind.whole
  apply Leads.after
  intro start
  apply Leads.bind (Leads.commaList item).allowingIn
  intro properties propertiesAre
  exact .after fun _ => finish_reads rfl rfl (.free propertiesAre fun _ _ => rfl)

theorem bindingTarget_obtains (reads : ReadsWhole source rules) :
    Obtains source (bindingTarget rules) ReadSteady := by
  apply Leads.after
  intro token
  split
  case h_1 => exact (arrayPattern_obtains reads).steady rfl
  case h_2 => exact (objectPattern_obtains reads).steady rfl
  case h_3 | h_4 | h_5 | h_6 => exact .after fun _ => (bindingOf_obtains token).steady rfl
  case h_7 => exact .of_failAt

theorem parameters_obtains (reads : ReadsWhole source rules) :
    Obtains source (parameters rules) (ReadAs .params) := by
  apply Leads.after
  intro start
  apply Leads.bind (Leads.commaList (parameter_obtains reads)).allowingIn
  intro items itemsAre
  exact .after fun _ => finish_reads rfl rfl (.free itemsAre fun _ _ => rfl)

/-! ### Functions and classes -/

theorem block_obtains (reads : ReadsWhole source rules) :
    Obtains source (block rules) (ReadAs .block) := by
  apply Leads.after
  intro start
  apply Leads.bind (Leads.repeatWhile reads.statement)
  intro statements statementsAre
  apply Leads.after
  intro brace
  have placed : All ReadWhole (statements.drop 0) := statementsAre
  exact list_reads rfl (fun _ _ => rfl) rfl (fun node there => (statementsAre node there).whole)
    placed nofun

theorem functionBody_obtains (reads : ReadsWhole source rules) :
    Obtains source (functionBody rules) (ReadAs .block) :=
  (block_obtains reads).allowingIn

theorem definedName_obtains {types : List TokenType} {required : Bool} {missing : ParseError} :
    Obtains source (definedName types required missing) Node.Whole := by
  apply Leads.after
  intro isName
  split
  · exact .after fun token => (bindingOf_obtains token).ofKind.whole
  · split
    · exact .after fun _ => .of_failAt
    · exact Obtains.absent

theorem function_obtains (reads : ReadsWhole source rules) {nameRequired : Bool}
    (isFunction : kind = .functionDecl ∨ kind = .functionExpr) :
    Obtains source (function rules kind nameRequired) (ReadAs kind) := by
  refine .after fun _ => .after fun _ => .optionally <| .after fun _ => .after fun _ => ?_
  apply Leads.bind definedName_obtains
  intro name nameIs
  apply Leads.bind (parameters_obtains reads)
  intro params paramsAre
  apply Leads.bind (functionBody_obtains reads)
  intro body bodyIs
  have paramsStay := (paramsAre.steady rfl).steady
  have bodyStays := (bodyIs.steady rfl).steady
  obtain rfl | rfl := isFunction
  · exact finishWith_reads rfl rfl
      (.cons nameIs rfl (.cons paramsAre.whole paramsStay (.cons bodyIs.whole bodyStays .nil)))
  · exact finishWith_reads rfl rfl
      (.cons nameIs rfl (.cons paramsAre.whole paramsStay (.cons bodyIs.whole bodyStays .nil)))

theorem methodAfter_obtains (reads : ReadsWhole source rules) {key : Node} {mods : Modifiers}
    {isStatic : Bool} (keyIs : key.Whole) :
    Obtains source (methodAfter rules token key mods isStatic) (ReadAs .method) := by
  apply Leads.bind (parameters_obtains reads)
  intro params paramsAre
  apply Leads.bind (functionBody_obtains reads)
  intro body bodyIs
  exact finishWith_reads rfl rfl (.cons keyIs rfl
    (.cons paramsAre.whole (paramsAre.steady rfl).steady
      (.cons bodyIs.whole (bodyIs.steady rfl).steady .nil)))

private theorem fieldAfter_obtains (reads : ReadsWhole source rules) {key : Node} {isStatic : Bool}
    (keyIs : key.Whole) :
    Obtains source (fieldAfter rules token key isStatic) (ReadAs .classField) := by
  apply Leads.after
  intro hasValue
  apply Leads.either reads.assignment.whole Obtains.absent
  intro value valueIs
  exact .after fun _ => finishWith_reads rfl rfl (.cons keyIs rfl (.cons valueIs rfl .nil))

theorem keyedMember_obtains (reads : ReadsWhole source rules) {isStatic : Bool} :
    Obtains source (keyedMember rules token isStatic) ReadSteady := by
  apply Leads.after
  intro mods
  apply Leads.bind (propertyKey_obtains reads)
  intro key keyIs
  apply Leads.after
  intro isMethod
  split
  · exact (methodAfter_obtains reads keyIs).steady rfl
  · exact (fieldAfter_obtains reads keyIs).steady rfl

private theorem classMember_obtains (reads : ReadsWhole source rules) :
    Obtains source (classMember rules) ReadSteady := by
  apply Leads.after
  intro start
  apply Leads.after
  intro next
  split
  · apply Leads.after
    intro word
    apply Leads.after
    intro isBlock
    split
    · apply Leads.bind (functionBody_obtains reads)
      intro body bodyIs
      have block : Obtains source (finish .staticBlock [body] start) (ReadAs .staticBlock) :=
        finish_reads rfl rfl (.cons bodyIs.whole (bodyIs.steady rfl).steady .nil)
      exact block.steady rfl
    · exact keyedMember_obtains reads
  · exact keyedMember_obtains reads

private theorem classBody_obtains (reads : ReadsWhole source rules) :
    Obtains source (classBody rules) (ReadAs .classBody) := by
  have item : Obtains source (do
      if ← accept .semicolon then return none
      return some (← classMember rules))
      fun member => ∀ node, member = some node → ReadSteady node := by
    apply Leads.after
    intro isStray
    split
    · exact .of_pure nofun
    · exact .some (classMember_obtains reads)
  apply Leads.after
  intro start
  apply Leads.bind (Leads.repeatWhile item).allowingIn
  intro members membersAre
  have areSteady : All ReadSteady (members.filterMap id) := by
    intro node there
    obtain ⟨member, isMember, isNode⟩ := List.mem_filterMap.mp there
    exact membersAre member isMember node isNode
  apply finish_reads rfl rfl
  exact .of_all (fun node there => (areSteady node there).whole) fun _ node there =>
    (areSteady node there).steady

theorem classDefinition_obtains (reads : ReadsWhole source rules) {nameRequired : Bool}
    (isClass : kind = .classDecl ∨ kind = .classExpr) :
    Obtains source (classDefinition rules kind nameRequired) (ReadAs kind) := by
  apply Leads.after
  intro start
  apply Leads.bind definedName_obtains
  intro name nameIs
  apply Leads.after
  intro hasSuperclass
  apply Leads.either reads.leftHandSide.whole Obtains.absent
  intro superclass superclassIs
  apply Leads.bind (classBody_obtains reads)
  intro body bodyIs
  have bodyStays := (bodyIs.steady rfl).steady
  obtain rfl | rfl := isClass
  · exact finish_reads rfl rfl
      (.cons nameIs rfl (.cons superclassIs rfl (.cons bodyIs.whole bodyStays .nil)))
  · exact finish_reads rfl rfl
      (.cons nameIs rfl (.cons superclassIs rfl (.cons bodyIs.whole bodyStays .nil)))

/-! ### Chains -/

theorem spreadable_obtains (reads : ReadsWhole source rules) :
    Obtains source (spreadable rules) Node.Whole := by
  apply Leads.after
  intro start
  apply Leads.after
  intro isSpread
  split
  · apply Leads.bind reads.assignment
    intro value valueIs
    exact (finish_reads rfl rfl (.cons valueIs.whole rfl .nil)).ofKind.whole
  · exact reads.assignment.whole

theorem arguments_obtains (reads : ReadsWhole source rules) :
    Obtains source (arguments rules) (ReadAs .args) := by
  apply Leads.after
  intro start
  apply Leads.bind (Leads.commaList (spreadable_obtains reads)).allowingIn
  intro items itemsAre
  exact .after fun _ => finish_reads rfl rfl (.free itemsAre fun _ _ => rfl)

private theorem templateParts_obtains (reads : ReadsWhole source rules) (budget : Nat) :
    Obtains source (templateParts rules budget) (All Node.Whole) := by
  induction budget with
  | zero => exact .of_throw
  | succ budget induction =>
      apply Leads.bind reads.expression.allowingIn
      intro value valueIs
      apply Leads.after
      intro goes
      split
      · apply Leads.after
        intro piece
        apply Leads.bind induction
        intro parts partsAre
        exact .of_pure (.cons valueIs.whole (.cons .leaf partsAre))
      · exact .after fun _ => .of_pure (.cons valueIs.whole (.cons .leaf .nil))

theorem template_obtains (reads : ReadsWhole source rules) :
    Obtains source (template rules) (ReadAs .template) := by
  apply Leads.after
  intro start
  apply Leads.after
  intro isWhole
  split
  · exact .after fun _ => finish_reads rfl rfl (.cons .leaf rfl .nil)
  · apply Leads.after
    intro head
    apply Leads.after
    intro state
    apply Leads.bind (templateParts_obtains reads _)
    intro parts partsAre
    exact finish_reads rfl rfl (.free (.cons .leaf partsAre) fun _ _ => rfl)

theorem bracketed_obtains (reads : ReadsWhole source rules) :
    Obtains source (bracketed rules) Node.Whole :=
  .bind reads.expression.allowingIn fun _ indexIs => .after fun _ => .of_pure indexIs.whole

theorem chainLink?_obtains (reads : ReadsWhole source rules) {allowCall : Bool} {object : Node}
    (objectIs : object.Whole) :
    Obtains source (chainLink? rules allowCall token object)
      fun result => ∀ node, result = some node → ReadWhole node := by
  have withArgs : ∀ {flags : Flags} {args : Node}, ReadAs .args args →
      Obtains source (finishWith flags .call [object, args] token) ReadWhole := by
    intro flags args argsAre
    have fits : Kind.call.takes 1 args = true := by
      show (args.isKind .args || args.isAbsent) = true
      rw [argsAre.is]
      rfl
    exact (finishWith_reads rfl rfl (.cons objectIs rfl (.cons argsAre.whole fits .nil))).ofKind
  have withWord : ∀ {flags : Flags} {word : Token} {type : LeafType},
      Obtains source (finishWith flags .member [object, leafOf type word] token) ReadWhole :=
    (finishWith_reads rfl rfl (.cons objectIs rfl (.cons .leaf rfl .nil))).ofKind
  have withIndex : ∀ {flags : Flags} {index : Node}, index.Whole →
      Obtains source (finishWith flags .subscript [object, index] token) ReadWhole :=
    fun indexIs => (finishWith_reads rfl rfl (.cons objectIs rfl (.cons indexIs rfl .nil))).ofKind
  apply Leads.after
  intro ahead
  split
  case h_1 => exact .after fun _ => .after fun _ => .some withWord
  case h_2 =>
    apply Leads.after
    intro word
    apply Leads.after
    intro isCall
    split
    · exact .bind (arguments_obtains reads) fun _ argsAre => .some (withArgs argsAre)
    · apply Leads.after
      intro isSubscript
      split
      · exact .bind (bracketed_obtains reads) fun _ indexIs => .some (withIndex indexIs)
      · exact .after fun _ => .some withWord
  case h_3 =>
    exact .after fun _ => .bind (bracketed_obtains reads) fun _ indexIs => .some (withIndex indexIs)
  case h_4 =>
    split
    · exact .bind (arguments_obtains reads) fun _ argsAre => .some (withArgs argsAre)
    · exact .of_pure nofun
  case h_5 | h_6 =>
    apply Leads.bind (template_obtains reads)
    intro quasi quasiIs
    have fits : FitFrom .taggedTemplate 0 [object, quasi] :=
      .cons objectIs rfl (.cons quasiIs.whole quasiIs.is .nil)
    exact .some (finish_reads rfl rfl fits).ofKind
  case h_7 => exact .of_pure nofun

theorem chain_obtains (reads : ReadsWhole source rules) {allowCall : Bool} {object : Node}
    (objectIs : ReadWhole object) :
    Obtains source (chain rules allowCall token object) ReadWhole := by
  apply Leads.after
  intro state
  generalize state.budget = budget
  induction budget generalizing object with
  | zero => exact .of_throw
  | succ budget induction =>
      apply Leads.bind (chainLink?_obtains reads objectIs.whole)
      intro longer longerIs
      cases longer with
      | some node => exact induction (longerIs node rfl)
      | none => exact .of_pure objectIs

/-! ### Primary expressions -/

theorem metaProperty_obtains {word : String} :
    Obtains source (metaProperty token word) ReadWhole :=
  .after fun _ => (finish_reads rfl rfl (.cons .leaf rfl .nil)).ofKind

theorem arrayLiteral_obtains (reads : ReadsWhole source rules) :
    Obtains source (arrayLiteral rules) ReadWhole := by
  apply Leads.after
  intro start
  apply Leads.bind (Leads.holedList .absent (spreadable_obtains reads)).allowingIn
  intro elements elementsAre
  exact .after fun _ => (finish_reads rfl rfl (.free elementsAre fun _ _ => rfl)).ofKind

def ReadEntry (node : Node) : Prop :=
  node.Whole ∧ node.isOneOf [.property, .shorthandProperty, .method, .spread] = true

private theorem readEntry_of_kind (readAs : ReadAs kind node)
    (isEntry : kind ∈ [Kind.property, .shorthandProperty, .method, .spread]) : ReadEntry node :=
  ⟨readAs.whole, List.any_eq_true.mpr ⟨kind, isEntry, readAs.is⟩⟩

private theorem objectMember_obtains (reads : ReadsWhole source rules) :
    Obtains source (objectMember rules) ReadEntry := by
  have entry : ∀ {reader : Reader Node} {kind : Kind},
      kind ∈ [Kind.property, .shorthandProperty, .method, .spread] →
      Obtains source reader (ReadAs kind) → Obtains source reader ReadEntry :=
    fun isEntry gives => gives.mono fun _ readAs => readEntry_of_kind readAs isEntry
  apply Leads.after
  intro start
  apply Leads.after
  intro isSpread
  split
  · apply Leads.bind reads.assignment
    intro value valueIs
    exact entry (by decide) (finish_reads rfl rfl (.cons valueIs.whole rfl .nil))
  · apply Leads.after
    intro mods
    apply Leads.bind (propertyKey_obtains reads)
    intro key keyIs
    apply Leads.after
    intro isCall
    split
    · exact entry (by decide) (methodAfter_obtains reads keyIs)
    · apply Leads.after
      intro hasValue
      split
      · apply Leads.bind reads.assignment
        intro value valueIs
        exact entry (by decide)
          (finish_reads rfl rfl (.cons keyIs rfl (.cons valueIs.whole rfl .nil)))
      · split
        · apply Leads.bind (finish_reads rfl rfl (.cons keyIs rfl .nil))
          intro ident (identIs : ReadAs .ident ident)
          exact entry (by decide) (finish_reads rfl rfl (.cons identIs.whole identIs.is .nil))
        · exact .after fun _ => .of_failAt

theorem objectLiteral_obtains (reads : ReadsWhole source rules) :
    Obtains source (objectLiteral rules) ReadWhole := by
  apply Leads.after
  intro start
  apply Leads.bind (Leads.commaList (objectMember_obtains reads)).allowingIn
  intro members membersAre
  have fits : FitFrom .object 0 members :=
    .of_all (fun node there => (membersAre node there).1) fun _ node there =>
      (membersAre node there).2
  exact .after fun _ => (finish_reads rfl rfl fits).ofKind

private theorem importExpression_obtains (reads : ReadsWhole source rules) :
    Obtains source (importExpression rules) ReadWhole := by
  apply Leads.after
  intro token
  apply Leads.after
  intro isMeta
  split
  · exact metaProperty_obtains
  · apply Leads.after
    intro bracket
    apply Leads.bind reads.assignment.allowingIn
    intro argument argumentIs
    exact .after fun _ => (finish_reads rfl rfl (.cons argumentIs.whole rfl .nil)).ofKind

private theorem parenthesized_obtains (reads : ReadsWhole source rules) :
    Obtains source (parenthesized rules) ReadWhole := by
  apply Leads.after
  intro token
  apply Leads.bind reads.expression.allowingIn
  intro expression expressionIs
  exact .after fun _ => (finish_reads rfl rfl (.cons expressionIs.whole rfl .nil)).ofKind

private theorem primary_obtains (reads : ReadsWhole source rules) :
    Obtains source (primary rules) ReadWhole := by
  apply Leads.after
  intro token
  split
  case h_1 | h_2 | h_3 | h_4 | h_5 | h_6 | h_7 | h_19 | h_20 | h_21 =>
    exact .after fun _ => (finish_reads rfl rfl (.cons .leaf rfl .nil)).ofKind
  case h_8 | h_9 => exact (template_obtains reads).ofKind
  case h_10 | h_11 => exact .after fun _ => (finish_reads rfl rfl .nil).ofKind
  case h_12 => exact (function_obtains reads (.inr rfl)).ofKind
  case h_13 => exact (classDefinition_obtains reads (.inr rfl)).ofKind
  case h_14 => exact parenthesized_obtains reads
  case h_15 => exact arrayLiteral_obtains reads
  case h_16 => exact objectLiteral_obtains reads
  case h_17 => exact importExpression_obtains reads
  case h_18 =>
    apply Leads.after
    intro isFunction
    split
    · exact (function_obtains reads (.inr rfl)).ofKind
    · exact .after fun _ => (finish_reads rfl rfl (.cons .leaf rfl .nil)).ofKind
  case h_22 | h_23 => exact .of_failAt

theorem chainHead_obtains (reads : ReadsWhole source rules) :
    Obtains source (chainHead rules) ReadWhole := by
  apply Leads.after
  intro isNew
  split
  · exact reads.construction
  · exact primary_obtains reads

theorem construction_obtains (reads : ReadsWhole source rules) :
    Obtains source (construction rules) ReadWhole := by
  apply Leads.after
  intro start
  apply Leads.after
  intro isMeta
  split
  · exact metaProperty_obtains
  · apply Leads.after
    intro calleeStart
    apply Leads.bind (chainHead_obtains reads)
    intro head headIs
    apply Leads.bind (chain_obtains reads headIs)
    intro callee calleeIs
    apply Leads.after
    intro hasArgs
    have args : Obtains source (arguments rules)
        fun args => args.Whole ∧ Kind.newExpr.takes 1 args = true := by
      apply (arguments_obtains reads).mono
      intro args argsAre
      refine ⟨argsAre.whole, ?_⟩
      show (args.isKind .args || args.isAbsent) = true
      rw [argsAre.is]
      rfl
    apply Leads.either args (.of_pure ⟨.absent, rfl⟩)
    rintro args ⟨argsAre, fits⟩
    exact (finish_reads rfl rfl (.cons calleeIs.whole rfl (.cons argsAre fits .nil))).ofKind

theorem leftHandSide_obtains (reads : ReadsWhole source rules) :
    Obtains source (leftHandSide rules) ReadWhole :=
  .after fun _ => .bind (chainHead_obtains reads) fun _ headIs => chain_obtains reads headIs

/-! ### Operators -/

theorem unary_obtains (reads : ReadsWhole source rules) :
    Obtains source (unary rules) ReadWhole := by
  apply Leads.after
  intro token
  split
  · exact .after fun _ => .bind reads.unary fun _ operandIs =>
      (finish_reads rfl rfl (.cons .leaf rfl (.cons operandIs.whole rfl .nil))).ofKind
  · split
    · exact .after fun _ => .bind reads.unary fun _ operandIs =>
        (finish_reads rfl rfl (.cons .leaf rfl (.cons operandIs.whole rfl .nil))).ofKind
    · split
      · exact .after fun _ => .bind reads.unary fun _ operandIs =>
          (finish_reads rfl rfl (.cons operandIs.whole rfl .nil)).ofKind
      · apply Leads.bind reads.leftHandSide
        intro operand operandIs
        apply Leads.after
        intro isUpdate
        apply Leads.after
        intro next
        split
        · exact .after fun _ =>
            (finish_reads rfl rfl (.cons operandIs.whole rfl (.cons .leaf rfl .nil))).ofKind
        · exact .of_pure operandIs

private theorem climb_obtains (reads : ReadsWhole source rules) {least : Nat} (budget : Nat) {left
    : Node}
    (leftIs : ReadWhole left) : Obtains source (climb rules least token budget left) ReadWhole := by
  induction budget generalizing left with
  | zero => exact .of_throw
  | succ budget induction =>
      apply Leads.after
      intro operator
      split
      · exact .of_pure leftIs
      · apply Leads.after
        intro op
        apply Leads.bind (reads.binary _)
        intro right rightIs
        refine .bind ?_ fun joined joinedIs => induction joinedIs
        split
        · exact (finish_reads rfl rfl
            (.cons leftIs.whole rfl (.cons .leaf rfl (.cons rightIs.whole rfl .nil)))).ofKind
        · exact (finish_reads rfl rfl
            (.cons leftIs.whole rfl (.cons .leaf rfl (.cons rightIs.whole rfl .nil)))).ofKind

theorem binary_obtains (reads : ReadsWhole source rules) (least : Nat) :
    Obtains source (binary rules least) ReadWhole :=
  .after fun _ => .bind reads.unary fun _ leftIs => .after fun _ => climb_obtains reads _ leftIs

theorem conditional_obtains (reads : ReadsWhole source rules) :
    Obtains source (conditional rules) ReadWhole := by
  apply Leads.after
  intro start
  apply Leads.bind (reads.binary 1)
  intro test testIs
  apply Leads.after
  intro isChoice
  split
  · apply Leads.bind reads.assignment.allowingIn
    intro consequent consequentIs
    apply Leads.after
    intro colon
    apply Leads.bind reads.assignment
    intro alternate alternateIs
    exact (finish_reads rfl rfl (.cons testIs.whole rfl
      (.cons consequentIs.whole rfl (.cons alternateIs.whole rfl .nil)))).ofKind
  · exact .of_pure testIs

theorem yieldExpression_obtains (reads : ReadsWhole source rules) :
    Obtains source (yieldExpression rules) ReadWhole := by
  refine .after fun _ => .after fun _ => .after fun _ => ?_
  apply Leads.either Obtains.absent reads.assignment.whole
  intro value valueIs
  exact (finishWith_reads rfl rfl (.cons valueIs rfl .nil)).ofKind

private theorem arrowParameters_obtains (reads : ReadsWhole source rules) :
    Obtains source (arrowParameters rules) (ReadAs .params) := by
  apply Leads.after
  intro isName
  split
  · exact .after fun token => .bind (bindingOf_obtains token) fun _ nameIs =>
      finish_reads rfl rfl (.cons nameIs.whole rfl .nil)
  · exact parameters_obtains reads

theorem arrowFunction_obtains (reads : ReadsWhole source rules) :
    Obtains source (arrowFunction rules) ReadWhole := by
  refine .after fun _ => .after fun _ => .after fun _ => .optionally ?_
  apply Leads.bind (arrowParameters_obtains reads)
  intro params paramsAre
  refine .after fun _ => .after fun _ => ?_
  apply Leads.either (functionBody_obtains reads).ofKind.whole reads.assignment.whole
  intro body bodyIs
  have fits : FitFrom .arrow 0 [params, body] :=
    .cons paramsAre.whole (paramsAre.steady rfl).steady (.cons bodyIs rfl .nil)
  exact (finishWith_reads rfl rfl fits).ofKind

/-! ### Targets -/

/-- A shorthand property as a target. -/
theorem shorthandTarget_whole {flags : Flags} {place : Option Place} {seat : Option Nat}
    {ident : Node} (property : (Node.tree .shorthandProperty flags place [⟨seat, ident⟩]).Whole) :
    (shorthandTarget (.tree .shorthandProperty flags place [⟨seat, ident⟩]) ident
      (ident.child 0)).Whole := by
  have nameIs := property.head.child 0
  have target : (reshape ident .binding [ident.child 0]).Whole :=
    reshape_whole rfl rfl (.cons nameIs rfl .nil)
  have shaped : (reshape (.tree .shorthandProperty flags place [⟨seat, ident⟩]) .patternProperty
      [ident.child 0, reshape ident .binding [ident.child 0]]).Whole :=
    reshape_whole rfl rfl (.cons nameIs rfl (.cons target rfl .nil))
  unfold shorthandTarget
  dsimp only
  split
  case h_1 isTree =>
    rw [isTree] at shaped
    exact .tree shaped.holds shaped.all
  case h_2 => exact shaped

/-- A target is whole if the expression is. -/
theorem toTarget_whole (nested : Bool) (node : Node) :
    node.Whole → ∀ target, toTarget nested node = .ok target → target.Whole := by
  refine toTarget.induct
    (fun nested node => node.Whole → ∀ target, toTarget nested node = .ok target → target.Whole)
    (fun elements => AllWhole elements → ∀ nodes, toElements elements = .ok nodes →
      All Node.Whole nodes)
    (fun members => AllWhole members → ∀ nodes, toProperties members = .ok nodes →
      All Node.Whole nodes)
    ?object ?array ?default ?assign ?ident ?other ?noElements ?spreadElement ?element
    ?noProperties ?property ?shorthand ?spread ?refused nested node
  case object =>
    intro nested flags place members induction whole target equality
    rw [toTarget] at equality
    obtain ⟨nodes, isNodes, equality⟩ := Calculation.of_bind_eq_ok equality
    cases equality
    exact reshape_whole rfl rfl (.free (induction whole.all nodes isNodes) fun _ _ => rfl)
  case array =>
    intro nested flags place elements induction whole target equality
    rw [toTarget] at equality
    obtain ⟨nodes, isNodes, equality⟩ := Calculation.of_bind_eq_ok equality
    cases equality
    exact reshape_whole rfl rfl (.free (induction whole.all nodes isNodes) fun _ _ => rfl)
  case default =>
    intro nested flags place s target t op u value isDefault induction whole result equality
    simp only [toTarget, isDefault, if_true] at equality
    obtain ⟨inner, isInner, equality⟩ := Calculation.of_bind_eq_ok equality
    cases equality
    have innerIs := induction whole.head inner isInner
    exact reshape_whole rfl rfl (.cons innerIs rfl (.cons whole.all.tail.tail.head rfl .nil))
  case assign =>
    intro nested flags place s target t op u value notDefault whole result equality
    simp only [toTarget, notDefault] at equality
    cases equality
    exact whole
  case ident =>
    intro nested flags place children whole target equality
    rw [toTarget] at equality
    cases nested with
    | true =>
        cases equality
        have counts := beq_iff_eq.mp whole.holds.counts
        refine reshape_whole rfl ?_ (.free whole.children fun _ _ => rfl)
        rw [Node.children, Node.seated, List.length_map, counts]
        rfl
    | false =>
        cases equality
        exact whole
  case other =>
    intro nested node notObject notArray notAssign notIdent whole target equality
    rw [toTarget] at equality
    · cases equality
      exact whole
    all_goals assumption
  case noElements =>
    intro areWhole nodes equality
    cases equality
    exact .nil
  case spreadElement =>
    intro seat flags place s value rest valueInduction restInduction areWhole nodes equality
    rw [toElements] at equality
    obtain ⟨inner, isInner, equality⟩ := Calculation.of_bind_eq_ok equality
    obtain ⟨others, areOthers, equality⟩ := Calculation.of_bind_eq_ok equality
    cases equality
    have innerIs := valueInduction areWhole.head.head inner isInner
    exact .cons (reshape_whole rfl rfl (.cons innerIs rfl .nil))
      (restInduction areWhole.tail others areOthers)
  case element =>
    intro seat node rest notSpread nodeInduction restInduction areWhole nodes equality
    rw [toElements] at equality
    · obtain ⟨first, isFirst, equality⟩ := Calculation.of_bind_eq_ok equality
      obtain ⟨others, areOthers, equality⟩ := Calculation.of_bind_eq_ok equality
      cases equality
      exact .cons (nodeInduction areWhole.head first isFirst)
        (restInduction areWhole.tail others areOthers)
    all_goals assumption
  case noProperties =>
    intro areWhole nodes equality
    cases equality
    exact .nil
  case property =>
    intro seat flags place s key t value rest valueInduction restInduction areWhole nodes equality
    rw [toProperties] at equality
    obtain ⟨inner, isInner, equality⟩ := Calculation.of_bind_eq_ok equality
    obtain ⟨others, areOthers, equality⟩ := Calculation.of_bind_eq_ok equality
    cases equality
    have innerIs := valueInduction areWhole.head.second inner isInner
    exact .cons (reshape_whole rfl rfl (.cons areWhole.head.head rfl (.cons innerIs rfl .nil)))
      (restInduction areWhole.tail others areOthers)
  case shorthand =>
    intro seat flags place s ident rest restInduction areWhole nodes equality
    rw [toProperties] at equality
    obtain ⟨others, areOthers, equality⟩ := Calculation.of_bind_eq_ok equality
    cases equality
    exact .cons (shorthandTarget_whole areWhole.head) (restInduction areWhole.tail others areOthers)
  case spread =>
    intro seat flags place s value rest valueInduction restInduction areWhole nodes equality
    rw [toProperties] at equality
    obtain ⟨inner, isInner, equality⟩ := Calculation.of_bind_eq_ok equality
    obtain ⟨others, areOthers, equality⟩ := Calculation.of_bind_eq_ok equality
    cases equality
    have innerIs := valueInduction areWhole.head.head inner isInner
    exact .cons (reshape_whole rfl rfl (.cons innerIs rfl .nil))
      (restInduction areWhole.tail others areOthers)
  case refused =>
    intro head tail notProperty notShorthand notSpread areWhole nodes equality
    rw [toProperties] at equality
    · cases equality
    all_goals assumption

theorem asTarget_obtains (whole : node.Whole) : Obtains source (asTarget node) Node.Whole := by
  unfold asTarget
  split
  case h_1 target isTarget => exact .of_pure (toTarget_whole false node whole target isTarget)
  case h_2 => exact .after fun _ => .of_failAt

/-! ### Expressions -/

theorem assignment_obtains (reads : ReadsWhole source rules) :
    Obtains source (assignment rules) ReadWhole := by
  apply Leads.after
  intro start
  split
  · exact yieldExpression_obtains reads
  · apply Leads.after
    intro isArrow
    split
    · exact arrowFunction_obtains reads
    · apply Leads.bind (conditional_obtains reads)
      intro left leftIs
      apply Leads.after
      intro op
      split
      · apply Leads.after
        intro _
        apply Leads.either (asTarget_obtains leftIs.whole) (.of_pure leftIs.whole)
        intro target targetIs
        apply Leads.bind reads.assignment
        intro value valueIs
        exact (finish_reads rfl rfl
          (.cons targetIs rfl (.cons .leaf rfl (.cons valueIs.whole rfl .nil)))).ofKind
      · exact .of_pure leftIs

theorem expression_obtains (reads : ReadsWhole source rules) :
    Obtains source (expression rules) ReadWhole := by
  apply Leads.after
  intro start
  apply Leads.bind (Leads.commaItems reads.assignment)
  intro items itemsAre
  split
  · exact .of_pure (itemsAre _ List.mem_cons_self)
  · exact (finish_reads rfl rfl
      (.free (fun node there => (itemsAre node there).whole) fun _ _ => rfl)).ofKind

end Grammar

end ScriptFold
