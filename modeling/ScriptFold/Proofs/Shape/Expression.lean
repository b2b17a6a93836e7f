import ScriptFold.Proofs.Reading.Expression
import ScriptFold.Proofs.Shape.Read

/-!
# Expressions that readers build

Every reader of names, patterns, functions, classes and expressions builds formed trees of
the kinds that go where it is used, if the rules it refers to do.
-/

namespace ScriptFold

namespace Grammar

/-- Rules that build formed trees. -/
structure ReadShapes (rules : Rules) : Prop where
  trees : ReadTrees rules
  statement : Provides rules.statement IsStatement
  expression : Provides rules.expression (Operand .loose)
  assignment : Provides rules.assignment (Operand .loose)
  binary : ∀ least, Provides (rules.binary least) (Operand .loose)
  unary : Provides rules.unary (Operand .loose)
  leftHandSide : Provides rules.leftHandSide (Operand .loose)
  construction : Provides rules.construction (Operand .loose)
  target : Provides rules.target (Operand .loose)

variable {rules : Rules}

/-- A tree that is read as an expression or a part of a pattern. -/
theorem finishWith_operand {kind : Kind} {flags : Flags} {nodes : List Node} {start : Token}
    (notStatement : kind.isStatement = false) (nodesAre : ReadFrom kind 0 nodes) :
    Provides (finishWith flags kind nodes start) (Operand .loose) :=
  (finishWith_shaped nodesAre).mono fun _ shaped => shaped.operand notStatement

theorem finish_operand {kind : Kind} {nodes : List Node} {start : Token}
    (notStatement : kind.isStatement = false) (nodesAre : ReadFrom kind 0 nodes) :
    Provides (finish kind nodes start) (Operand .loose) :=
  finishWith_operand notStatement nodesAre

/-! ### Names, keys and patterns -/

theorem bindingOf_shaped (token : Token) : Provides (bindingOf token) (Shaped .binding) :=
  finish_shaped (.cons (.word rfl rfl) .nil)

theorem leafOf_isKey {type : LeafType} {token : Token} : IsKey (leafOf type token) :=
  ⟨.leaf, .inl rfl⟩

theorem propertyKey_isKey (shapes : ReadShapes rules) : Provides (propertyKey rules) IsKey := by
  have literal : ∀ {token : Token} {type : LeafType},
      Provides (finish .literal [leafOf type token] token) IsKey := by
    intro token type
    refine (finish_shaped (.cons (.word rfl rfl) .nil)).mono fun node shaped => ?_
    refine ⟨shaped.formed, .inl ?_⟩
    rw [Node.isInert, shaped.isKind]
    rfl
  refine .after fun token => ?_
  split
  · exact .after fun _ => .of_pure leafOf_isKey
  · split
    case h_1 => exact .after fun _ => .of_pure leafOf_isKey
    case h_2 | h_3 | h_4 => exact .after fun _ => literal
    case h_5 =>
      refine .after fun _ => .bind shapes.assignment.allowingIn fun key keyIs => .after fun _ => ?_
      exact (finish_shaped (.cons (.operand keyIs rfl) .nil)).mono fun node shaped =>
        ⟨shaped.formed, .inr shaped.isKind⟩
    case h_6 => exact .of_failAt

theorem restElement_operand (shapes : ReadShapes rules) (start : Token) :
    Provides (restElement rules start) (Operand .loose) :=
  .bind shapes.target fun _ targetIs => finish_operand rfl (.cons (.operand targetIs rfl) .nil)

theorem parameter_operand (shapes : ReadShapes rules) :
    Provides (parameter rules) (Operand .loose) := by
  refine .after fun start => .after fun isRest => ?_
  split
  · exact restElement_operand shapes start
  · refine .bind shapes.target fun target targetIs => .after fun hasDefault => ?_
    split
    · exact .bind shapes.assignment fun default defaultIs =>
        finish_operand rfl (.cons (.operand targetIs rfl) (.cons (.operand defaultIs rfl) .nil))
    · exact .of_pure targetIs

theorem arrayPattern_operand (shapes : ReadShapes rules) :
    Provides (arrayPattern rules) (Operand .loose) := by
  have items : Provides (holedList .closeBracket (parameter rules)) (All IsOptional) :=
    .holedList (.inr rfl) ((parameter_operand shapes).mono fun _ => .inl)
  exact .after fun _ => .bind items.allowingIn fun _ elementsAre => .after fun _ =>
    finish_operand rfl (.of_all elementsAre fun _ _ is => .optional is rfl)

private theorem patternProperty_operand (shapes : ReadShapes rules) :
    Provides (patternProperty rules) (Operand .loose) := by
  refine .after fun start => .bind (propertyKey_isKey shapes) fun key keyIs =>
    .after fun hasTarget => ?_
  split
  · exact .bind (parameter_operand shapes) fun target targetIs =>
      finish_operand rfl (.cons (.key keyIs rfl) (.cons (.operand targetIs rfl) .nil))
  · split
    · exact .after fun _ => .of_failAt
    · rename_i notTree
      refine .bind (finish_operand rfl (.cons (.word (by simpa using notTree) rfl) .nil))
        fun name nameIs => .after fun hasDefault => ?_
      have finished : ∀ target, Operand .loose target → Provides
          (finishWith { shorthand := true } .patternProperty [key, target] start)
          (Operand .loose) := fun target targetIs =>
        finishWith_operand rfl (.cons (.key keyIs rfl) (.cons (.operand targetIs rfl) .nil))
      split
      · exact .bind shapes.assignment fun default defaultIs =>
          .bind (finish_operand rfl
            (.cons (.operand nameIs rfl) (.cons (.operand defaultIs rfl) .nil))) finished
      · exact .bind (.of_pure nameIs) finished

private theorem objectPattern_operand (shapes : ReadShapes rules) :
    Provides (objectPattern rules) (Operand .loose) := by
  refine .after fun start => .bind (Leads.commaList ?_).allowingIn
    fun properties propertiesAre => .after fun _ =>
      finish_operand rfl (.of_all propertiesAre fun _ _ is => .operand is rfl)
  refine .after fun first => .after fun isRest => ?_
  split
  · exact restElement_operand shapes first
  · exact patternProperty_operand shapes

theorem bindingTarget_operand (shapes : ReadShapes rules) :
    Provides (bindingTarget rules) (Operand .loose) := by
  refine .after fun token => ?_
  split
  case h_1 => exact arrayPattern_operand shapes
  case h_2 => exact objectPattern_operand shapes
  case h_3 | h_4 | h_5 | h_6 =>
    exact .after fun _ => (bindingOf_shaped token).mono fun _ shaped => shaped.operand rfl
  case h_7 => exact .of_failAt

theorem parameters_shaped (shapes : ReadShapes rules) :
    Provides (parameters rules) (Shaped .params) :=
  .after fun _ => .bind (Leads.commaList (parameter_operand shapes)).allowingIn
    fun _ itemsAre => .after fun _ =>
      finish_shaped (.of_all itemsAre fun _ _ is => .operand is rfl)

/-! ### Functions and classes -/

theorem block_shaped (shapes : ReadShapes rules) : Provides (block rules) (Shaped .block) :=
  .after fun _ => .bind (Leads.repeatWhile shapes.statement) fun _ statementsAre =>
    .after fun _ => finish_shaped (.of_all statementsAre fun _ _ is => .listed is rfl)

theorem functionBody_shaped (shapes : ReadShapes rules) :
    Provides (functionBody rules) (Shaped .block) :=
  (block_shaped shapes).allowingIn

/-- The name of a function or class is never folded. -/
theorem definedName_inert {types : List TokenType} {required : Bool} {missing : ParseError} :
    Provides (definedName types required missing)
      fun node => Formed .loose node ∧ node.isInert = true := by
  refine .after fun isName => ?_
  split
  · refine .after fun token => (bindingOf_shaped token).mono fun node shaped => ⟨shaped.formed, ?_⟩
    rw [Node.isInert, shaped.isKind]
    rfl
  · split
    · exact .after fun _ => .of_failAt
    · exact .of_pure ⟨.absent, rfl⟩

theorem function_shaped (shapes : ReadShapes rules) {kind : Kind} {nameRequired : Bool}
    (isFunction : kind = .functionDecl ∨ kind = .functionExpr) :
    Provides (function rules kind nameRequired) (Shaped kind) := by
  refine .after fun _ => .after fun _ => .optionally <| .after fun _ => .after fun _ =>
    .bind definedName_inert fun _ nameIs => .bind (parameters_shaped shapes) fun _ paramsAre =>
      .bind (functionBody_shaped shapes) fun _ bodyIs => finishWith_shaped ?_
  rcases isFunction with rfl | rfl <;>
    exact .cons (.inert nameIs.1 nameIs.2 rfl)
      (.cons (.any paramsAre.formed rfl) (.cons (.any bodyIs.formed rfl) .nil))

theorem methodAfter_shaped (shapes : ReadShapes rules) {start : Token} {key : Node}
    {mods : Modifiers} {isStatic : Bool} (keyIs : IsKey key) :
    Provides (methodAfter rules start key mods isStatic) (Shaped .method) :=
  .bind (parameters_shaped shapes) fun _ paramsAre => .bind (functionBody_shaped shapes)
    fun _ bodyIs => finishWith_shaped (.cons (.key keyIs rfl)
      (.cons (.any paramsAre.formed rfl) (.cons (.any bodyIs.formed rfl) .nil)))

/-- An expression that may be left out. -/
theorem optional_provides {reader : Reader Node} (provides : Provides reader (Operand .loose)) :
    Provides reader IsOptional :=
  provides.mono fun _ => .inl

theorem absent_optional : Provides (pure .absent) IsOptional :=
  .of_pure (.inr rfl)

private theorem fieldAfter_shaped (shapes : ReadShapes rules) {start : Token} {key : Node}
    {isStatic : Bool} (keyIs : IsKey key) :
    Provides (fieldAfter rules start key isStatic) (Shaped .classField) :=
  .after fun _ => .either (optional_provides shapes.assignment) absent_optional fun _ valueIs =>
    .after fun _ => finishWith_shaped (.cons (.key keyIs rfl) (.cons (.optional valueIs rfl) .nil))

theorem keyedMember_formed (shapes : ReadShapes rules) {start : Token} {isStatic : Bool} :
    Provides (keyedMember rules start isStatic) (Formed .loose) := by
  refine .after fun mods => .bind (propertyKey_isKey shapes) fun key keyIs =>
    .after fun isMethod => ?_
  split
  · exact (methodAfter_shaped shapes keyIs).mono fun _ shaped => shaped.formed
  · exact (fieldAfter_shaped shapes keyIs).mono fun _ shaped => shaped.formed

private theorem classMember_formed (shapes : ReadShapes rules) :
    Provides (classMember rules) (Formed .loose) := by
  refine .after fun start => .after fun next => ?_
  split
  · refine .after fun _ => .after fun isBlock => ?_
    split
    · exact .bind (functionBody_shaped shapes) fun _ bodyIs =>
        (finish_shaped (.cons (.any bodyIs.formed rfl) .nil)).mono
          fun _ (shaped : Shaped .staticBlock _) => shaped.formed
    · exact keyedMember_formed shapes
  · exact keyedMember_formed shapes

private theorem classBody_shaped (shapes : ReadShapes rules) :
    Provides (classBody rules) (Shaped .classBody) := by
  have item : Provides (do
      if ← accept .semicolon then return none
      return some (← classMember rules))
      fun member => ∀ node, member = some node → Formed .loose node := by
    refine .after fun isStray => ?_
    split
    · exact .of_pure nofun
    · refine .bind (classMember_formed shapes) fun member memberIs => .of_pure ?_
      intro node isNode
      cases isNode
      exact memberIs
  refine .after fun start => .bind (Leads.repeatWhile item).allowingIn
    fun members membersAre => ?_
  have areFormed : All (Formed .loose) (members.filterMap id) := by
    intro node there
    obtain ⟨member, isMember, isNode⟩ := List.mem_filterMap.mp there
    exact membersAre member isMember node isNode
  exact finish_shaped (.of_all areFormed fun _ _ is => .any is rfl)

theorem classDefinition_shaped (shapes : ReadShapes rules) {kind : Kind} {nameRequired : Bool}
    (isClass : kind = .classDecl ∨ kind = .classExpr) :
    Provides (classDefinition rules kind nameRequired) (Shaped kind) := by
  refine .after fun _ => .bind definedName_inert fun _ nameIs => .after fun _ =>
    .either (optional_provides shapes.leftHandSide) absent_optional fun _ superclassIs =>
      .bind (classBody_shaped shapes) fun _ bodyIs => finish_shaped ?_
  rcases isClass with rfl | rfl <;>
    exact .cons (.inert nameIs.1 nameIs.2 rfl)
      (.cons (.optional superclassIs rfl) (.cons (.any bodyIs.formed rfl) .nil))

/-! ### Chains -/

theorem spreadable_operand (shapes : ReadShapes rules) :
    Provides (spreadable rules) (Operand .loose) := by
  refine .after fun start => .after fun isSpread => ?_
  split
  · exact .bind shapes.assignment fun _ valueIs =>
      finish_operand rfl (.cons (.operand valueIs rfl) .nil)
  · exact shapes.assignment

theorem arguments_shaped (shapes : ReadShapes rules) : Provides (arguments rules) (Shaped .args) :=
  .after fun _ => .bind (Leads.commaList (spreadable_operand shapes)).allowingIn
    fun _ itemsAre => .after fun _ =>
      finish_shaped (.of_all itemsAre fun _ _ is => .operand is rfl)

/-- Substitutions and pieces take turns. -/
theorem templateParts_read (shapes : ReadShapes rules) (budget : Nat) :
    Provides (templateParts rules budget)
      fun parts => ∀ start, start % 2 = 1 → ReadFrom .template start parts := by
  have turns : ∀ {value piece : Node} {rest : List Node} {start : Nat}, start % 2 = 1 →
      Operand .loose value → piece.isTree = false → ReadFrom .template (start + 2) rest →
      ReadFrom .template start (value :: piece :: rest) := by
    intro value piece rest start isOdd valueIs pieceIs restAre
    refine .cons (.operand valueIs (by rw [template_role isOdd]; rfl)) (.cons ?_ restAre)
    exact .word pieceIs (template_word (by omega))
  induction budget with
  | zero => exact .of_throw
  | succ budget induction =>
      refine .bind shapes.expression.allowingIn fun value valueIs => .after fun goes => ?_
      split
      · refine .after fun _ => .bind induction fun _ partsAre => .of_pure fun start isOdd => ?_
        exact turns isOdd valueIs rfl (partsAre (start + 2) (by omega))
      · exact .after fun _ => .of_pure fun start isOdd => turns isOdd valueIs rfl .nil

theorem template_shaped (shapes : ReadShapes rules) :
    Provides (template rules) (Shaped .template) := by
  refine .after fun start => .after fun isWhole => ?_
  split
  · exact .after fun _ => finish_shaped (.cons (.word rfl rfl) .nil)
  · exact .after fun _ => .after fun _ => .bind (templateParts_read shapes _) fun _ partsAre =>
      finish_shaped (.cons (.word rfl rfl) (partsAre 1 rfl))

theorem bracketed_operand (shapes : ReadShapes rules) :
    Provides (bracketed rules) (Operand .loose) :=
  .bind shapes.expression.allowingIn fun _ indexIs => .after fun _ => .of_pure indexIs

/-- An expression that a reader may give. -/
def MaybeOperand (result : Option Node) : Prop :=
  ∀ node, result = some node → Operand .loose node

theorem chainLink?_operand (shapes : ReadShapes rules) {allowCall : Bool} {start : Token}
    {object : Node} (objectIs : Operand .loose object) :
    Provides (chainLink? rules allowCall start object) MaybeOperand := by
  refine .after fun token => ?_
  split
  case h_1 =>
    exact .after fun _ => .after fun _ =>
      .some (finish_operand rfl (.cons (.operand objectIs rfl) (.cons (.word rfl rfl) .nil)))
  case h_2 =>
    refine .after fun _ => .after fun isCall => ?_
    split
    · exact .bind (arguments_shaped shapes) fun _ argsAre =>
        .some (finishWith_operand rfl
          (.cons (.operand objectIs rfl) (.cons (.only argsAre rfl) .nil)))
    · refine .after fun isSubscript => ?_
      split
      · exact .bind (bracketed_operand shapes) fun _ indexIs =>
          .some (finishWith_operand rfl
            (.cons (.operand objectIs rfl) (.cons (.operand indexIs rfl) .nil)))
      · exact .after fun _ => .some (finishWith_operand rfl
          (.cons (.operand objectIs rfl) (.cons (.word rfl rfl) .nil)))
  case h_3 =>
    exact .after fun _ => .bind (bracketed_operand shapes) fun _ indexIs =>
      .some (finish_operand rfl (.cons (.operand objectIs rfl) (.cons (.operand indexIs rfl) .nil)))
  case h_4 =>
    split
    · exact .bind (arguments_shaped shapes) fun _ argsAre =>
        .some (finish_operand rfl (.cons (.operand objectIs rfl) (.cons (.only argsAre rfl) .nil)))
    · exact .of_pure nofun
  case h_5 | h_6 =>
    exact .bind (template_shaped shapes) fun _ quasiIs => .some (finish_operand rfl
      (.cons (.operand objectIs rfl) (.cons ⟨quasiIs.isKind, quasiIs.formed⟩ .nil)))
  case h_7 => exact .of_pure nofun

theorem chain_operand (shapes : ReadShapes rules) {allowCall : Bool} {start : Token}
    {object : Node} (objectIs : Operand .loose object) :
    Provides (chain rules allowCall start object) (Operand .loose) := by
  refine .after fun state => ?_
  generalize state.budget = budget
  induction budget generalizing object with
  | zero => exact .of_throw
  | succ budget induction =>
      refine .bind (chainLink?_operand shapes objectIs) fun longer longerIs => ?_
      split
      case h_1 node => exact induction (longerIs node rfl)
      case h_2 => exact .of_pure objectIs

/-! ### Primary expressions -/

theorem metaProperty_operand {start : Token} {word : String} :
    Provides (metaProperty start word) (Operand .loose) :=
  .after fun _ => finish_operand rfl (.cons (.word rfl rfl) .nil)

theorem arrayLiteral_operand (shapes : ReadShapes rules) :
    Provides (arrayLiteral rules) (Operand .loose) := by
  have items : Provides (holedList .closeBracket (spreadable rules)) (All IsOptional) :=
    .holedList (.inr rfl) (optional_provides (spreadable_operand shapes))
  exact .after fun _ => .bind items.allowingIn fun _ elementsAre => .after fun _ =>
    finish_operand rfl (.of_all elementsAre fun _ _ is => .optional is rfl)

private theorem objectMember_formed (shapes : ReadShapes rules) :
    Provides (objectMember rules) (Formed .loose) := by
  refine .after fun start => .after fun isSpread => ?_
  split
  · exact .bind shapes.assignment fun _ valueIs =>
      (finish_operand rfl (.cons (.operand valueIs rfl) .nil)).mono
        fun _ operand => operand.good.formed
  · refine .after fun mods => .bind (propertyKey_isKey shapes) fun key keyIs =>
      .after fun isCall => ?_
    split
    · exact (methodAfter_shaped shapes keyIs).mono fun _ shaped => shaped.formed
    · refine .after fun hasValue => ?_
      split
      · exact .bind shapes.assignment fun _ valueIs =>
          (finish_operand rfl (.cons (.key keyIs rfl) (.cons (.operand valueIs rfl) .nil))).mono
            fun _ operand => operand.good.formed
      · split
        · refine .bind (finish_shaped (.cons (.word rfl rfl) .nil)) fun ident identIs => ?_
          have named : ReadAt .shorthandProperty 0 ident := ⟨identIs.isKind, identIs.formed⟩
          exact (finish_operand rfl (.cons named .nil)).mono fun _ operand => operand.good.formed
        · exact .after fun _ => .of_failAt

private theorem objectLiteral_operand (shapes : ReadShapes rules) :
    Provides (objectLiteral rules) (Operand .loose) :=
  .after fun _ => .bind (Leads.commaList (objectMember_formed shapes)).allowingIn
    fun _ membersAre => .after fun _ =>
      finish_operand rfl (.of_all membersAre fun _ _ is => .any is rfl)

private theorem importExpression_operand (shapes : ReadShapes rules) :
    Provides (importExpression rules) (Operand .loose) := by
  refine .after fun token => .after fun isMeta => ?_
  split
  · exact metaProperty_operand
  · exact .after fun _ => .bind shapes.assignment.allowingIn fun _ argumentIs =>
      .after fun _ => finish_operand rfl (.cons (.operand argumentIs rfl) .nil)

private theorem parenthesized_operand (shapes : ReadShapes rules) :
    Provides (parenthesized rules) (Operand .loose) :=
  .after fun _ => .bind shapes.expression.allowingIn fun _ expressionIs =>
    .after fun _ => finish_operand rfl (.cons (.operand expressionIs rfl) .nil)

theorem functionExpression_operand (shapes : ReadShapes rules) {nameRequired : Bool} :
    Provides (function rules .functionExpr nameRequired) (Operand .loose) :=
  (function_shaped shapes (.inr rfl)).mono fun _ shaped => shaped.operand rfl

private theorem primary_operand (shapes : ReadShapes rules) :
    Provides (primary rules) (Operand .loose) := by
  refine .after fun token => ?_
  split
  case h_1 | h_2 | h_3 | h_4 | h_5 | h_6 | h_7 | h_19 | h_20 | h_21 =>
    exact .after fun _ => finish_operand rfl (.cons (.word rfl rfl) .nil)
  case h_8 | h_9 => exact (template_shaped shapes).mono fun _ shaped => shaped.operand rfl
  case h_10 | h_11 => exact .after fun _ => finish_operand rfl .nil
  case h_12 => exact functionExpression_operand shapes
  case h_13 =>
    exact (classDefinition_shaped shapes (.inr rfl)).mono fun _ shaped => shaped.operand rfl
  case h_14 => exact parenthesized_operand shapes
  case h_15 => exact arrayLiteral_operand shapes
  case h_16 => exact objectLiteral_operand shapes
  case h_17 => exact importExpression_operand shapes
  case h_18 =>
    refine .after fun isFunction => ?_
    split
    · exact functionExpression_operand shapes
    · exact .after fun _ => finish_operand rfl (.cons (.word rfl rfl) .nil)
  case h_22 | h_23 => exact .of_failAt

theorem chainHead_operand (shapes : ReadShapes rules) :
    Provides (chainHead rules) (Operand .loose) := by
  refine .after fun isNew => ?_
  split
  · exact shapes.construction
  · exact primary_operand shapes

theorem construction_operand (shapes : ReadShapes rules) :
    Provides (construction rules) (Operand .loose) := by
  have args : Provides (arguments rules) (ReadAt .newExpr 1) :=
    (arguments_shaped shapes).mono fun _ shaped => .only shaped rfl
  refine .after fun start => .after fun isMeta => ?_
  split
  · exact metaProperty_operand
  · exact .after fun _ => .bind (chainHead_operand shapes) fun _ headIs =>
      .bind (chain_operand shapes headIs) fun _ calleeIs => .after fun _ =>
        .either args (.of_pure ⟨.inr rfl, .absent⟩) fun _ argsAre =>
          finish_operand rfl (.cons (.operand calleeIs rfl) (.cons argsAre .nil))

theorem leftHandSide_operand (shapes : ReadShapes rules) :
    Provides (leftHandSide rules) (Operand .loose) :=
  .after fun _ => .bind (chainHead_operand shapes) fun _ headIs => chain_operand shapes headIs

/-! ### Operators -/

theorem unary_operand (shapes : ReadShapes rules) : Provides (unary rules) (Operand .loose) := by
  refine .after fun token => ?_
  split
  · exact .after fun _ => .bind shapes.unary fun _ operandIs =>
      finish_operand rfl (.cons (.word rfl rfl) (.cons (.operand operandIs rfl) .nil))
  · split
    · exact .after fun _ => .bind shapes.unary fun _ operandIs =>
        finish_operand rfl (.cons (.word rfl rfl) (.cons (.operand operandIs rfl) .nil))
    · split
      · exact .after fun _ => .bind shapes.unary fun _ operandIs =>
          finish_operand rfl (.cons (.operand operandIs rfl) .nil)
      · refine .bind shapes.leftHandSide fun operand operandIs => .after fun _ =>
          .after fun _ => ?_
        split
        · exact .after fun _ =>
            finish_operand rfl (.cons (.operand operandIs rfl) (.cons (.word rfl rfl) .nil))
        · exact .of_pure operandIs

private theorem operator?_spelled {least : Nat} :
    Provides (operator? least) fun result =>
      ∀ op precedence, result = some (op, precedence) → op.IsSpelled := by
  refine .bind current_provides fun token spelled => .after fun _ => .of_pure ?_
  intro op precedence isResult
  split at isResult
  case h_1 =>
    split at isResult <;> cases isResult
    exact spelled
  case h_2 => cases isResult

/-- A logical operator is spelled as one. -/
theorem logicalOp_read {op : Token} (spelled : op.IsSpelled)
    (isLogical : isLogical op.type = true) :
    ReadAt .logical 1 (leafOf .op op) := by
  refine ⟨⟨_, rfl, ?_⟩, .leaf⟩
  show op.text ∈ logicalSpellings
  have isOne : op.type ∈ [TokenType.and, .or, .nullish] := by
    revert isLogical
    cases op.type <;> simp [Grammar.isLogical]
  have are : ∀ type ∈ [TokenType.and, .or, .nullish],
      type.isOperator = true ∧ Text.ofString type.spelling ∈ logicalSpellings := by
    decide
  rw [spelled (are op.type isOne).1]
  exact (are op.type isOne).2

private theorem climb_operand (shapes : ReadShapes rules) {least : Nat} {start : Token} (budget
    : Nat)
    {left : Node} (leftIs : Operand .loose left) :
    Provides (climb rules least start budget left) (Operand .loose) := by
  induction budget generalizing left with
  | zero => exact .of_throw
  | succ budget induction =>
      refine .bind operator?_spelled fun operator operatorIs => ?_
      split
      · exact .of_pure leftIs
      case h_2 op precedence =>
        refine .after fun _ => .bind (shapes.binary _) fun right rightIs => ?_
        refine .bind ?_ fun joined joinedIs => induction joinedIs
        split
        case isTrue isLogical =>
          exact finish_operand rfl (.cons (.operand leftIs rfl)
            (.cons (logicalOp_read (operatorIs op precedence rfl) isLogical)
              (.cons (.operand rightIs rfl) .nil)))
        case isFalse =>
          exact finish_operand rfl (.cons (.operand leftIs rfl) (.cons (.word rfl rfl)
            (.cons (.operand rightIs rfl) .nil)))

theorem binary_operand (shapes : ReadShapes rules) (least : Nat) :
    Provides (binary rules least) (Operand .loose) :=
  .after fun _ => .bind shapes.unary fun _ leftIs => .after fun _ => climb_operand shapes _ leftIs

theorem conditional_operand (shapes : ReadShapes rules) :
    Provides (conditional rules) (Operand .loose) := by
  refine .after fun start => .bind (shapes.binary 1) fun test testIs => .after fun isChoice => ?_
  split
  · exact .bind shapes.assignment.allowingIn fun _ consequentIs => .after fun _ =>
      .bind shapes.assignment fun _ alternateIs => finish_operand rfl
        (.cons (.operand testIs rfl)
          (.cons (.operand consequentIs rfl) (.cons (.operand alternateIs rfl) .nil)))
  · exact .of_pure testIs

private theorem yieldExpression_operand (shapes : ReadShapes rules) :
    Provides (yieldExpression rules) (Operand .loose) :=
  .after fun _ => .after fun _ => .after fun _ =>
    .either absent_optional (optional_provides shapes.assignment)
      fun _ valueIs => finishWith_operand rfl (.cons (.optional valueIs rfl) .nil)

private theorem arrowParameters_shaped (shapes : ReadShapes rules) :
    Provides (arrowParameters rules) (Shaped .params) := by
  refine .after fun isName => ?_
  split
  · exact .after fun token => .bind (bindingOf_shaped token) fun _ nameIs =>
      finish_shaped (.cons (.operand (nameIs.operand rfl) rfl) .nil)
  · exact parameters_shaped shapes

private theorem arrowFunction_operand (shapes : ReadShapes rules) :
    Provides (arrowFunction rules) (Operand .loose) := by
  have body : Provides (functionBody rules) (ReadAt .arrow 1) :=
    (functionBody_shaped shapes).mono fun _ shaped => .also shaped rfl List.mem_cons_self
  have value : Provides rules.assignment (ReadAt .arrow 1) :=
    shapes.assignment.mono fun _ operand => .operand operand rfl
  exact .after fun _ => .after fun _ => .after fun _ => .optionally <|
    .bind (arrowParameters_shaped shapes) fun _ paramsAre => .after fun _ => .after fun _ =>
      .either body value fun _ bodyIs =>
        finishWith_operand rfl (.cons (.any paramsAre.formed rfl) (.cons bodyIs .nil))

theorem assignment_operand (shapes : ReadShapes rules) :
    Provides (assignment rules) (Operand .loose) := by
  refine .after fun start => ?_
  split
  · exact yieldExpression_operand shapes
  · refine .after fun isArrow => ?_
    split
    · exact arrowFunction_operand shapes
    · refine .bind ((conditional_operand shapes).and_yields (conditional_asRead shapes.trees))
        fun left leftIs => .after fun op => ?_
      have target : Provides (asTarget left) (Operand .loose) :=
        (asTarget_targeted ⟨leftIs.2, leftIs.1.good.formed⟩).mono
          fun _ targeted => targeted.operand leftIs.1.isOperand
      split
      · exact .after fun _ => .either target (.of_pure leftIs.1)
          fun _ targetIs => .bind shapes.assignment fun _ valueIs => finish_operand rfl
            (.cons (.operand targetIs rfl)
              (.cons (.word rfl rfl) (.cons (.operand valueIs rfl) .nil)))
      · exact .of_pure leftIs.1

theorem expression_operand (shapes : ReadShapes rules) :
    Provides (expression rules) (Operand .loose) := by
  refine .after fun start => .bind (Leads.commaItems shapes.assignment)
    fun items itemsAre => ?_
  split
  case h_1 single => exact .of_pure (itemsAre single List.mem_cons_self)
  case h_2 => exact finish_operand rfl (.of_all itemsAre fun _ _ is => .operand is rfl)

end Grammar

end ScriptFold
