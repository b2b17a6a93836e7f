import ScriptFold.Grammar.Expression
import ScriptFold.Proofs.Reading.AsRead

/-!
# Expressions as they are read

Every reader of names, patterns, functions, classes and expressions builds its trees as
they are read, if the rules it refers to do.
-/

namespace ScriptFold

namespace Grammar

/-- Rules that build trees as they are read. -/
structure ReadTrees (rules : Rules) : Prop where
  statement : Yields rules.statement AsRead
  expression : Yields rules.expression AsRead
  assignment : Yields rules.assignment AsRead
  binary : ∀ least, Yields (rules.binary least) AsRead
  unary : Yields rules.unary AsRead
  leftHandSide : Yields rules.leftHandSide AsRead
  construction : Yields rules.construction AsRead
  target : Yields rules.target AsRead

variable {rules : Rules}

theorem absent_asRead : Yields (pure .absent) AsRead :=
  .of_pure .absent

theorem bindingOf_asRead (token : Token) : Yields (bindingOf token) AsRead :=
  finish_asRead nofun (.cons .leaf .nil)

theorem propertyKey_asRead (reads : ReadTrees rules) : Yields (propertyKey rules) AsRead := by
  refine .after fun token => ?_
  split
  · exact .after fun _ => .of_pure .leaf
  · split
    case h_1 => exact .after fun _ => .of_pure .leaf
    case h_2 | h_3 | h_4 => exact .after fun _ => finish_asRead nofun (.cons .leaf .nil)
    case h_5 =>
      exact .after fun _ => .bind reads.assignment.allowingIn fun key keyIs =>
        .after fun _ => finish_asRead nofun (.cons keyIs .nil)
    case h_6 => exact .of_failAt

theorem restElement_asRead (reads : ReadTrees rules) (start : Token) :
    Yields (restElement rules start) AsRead :=
  .bind reads.target fun _ targetIs => finish_asRead nofun (.cons targetIs .nil)

theorem parameter_asRead (reads : ReadTrees rules) : Yields (parameter rules) AsRead := by
  refine .after fun start => .after fun isRest => ?_
  split
  · exact restElement_asRead reads start
  · refine .bind reads.target fun target targetIs => .after fun hasDefault => ?_
    split
    · exact .bind reads.assignment fun default defaultIs =>
        finish_asRead nofun (.cons targetIs (.cons defaultIs .nil))
    · exact .of_pure targetIs

private theorem arrayPattern_asRead (reads : ReadTrees rules) : Yields (arrayPattern rules) AsRead
    :=
  .after fun _ => .bind (Yields.holedList .absent (parameter_asRead reads)).allowingIn
    fun _ elementsAre => .after fun _ => finish_asRead nofun elementsAre

private theorem patternProperty_asRead (reads : ReadTrees rules) :
    Yields (patternProperty rules) AsRead := by
  refine .after fun start => .bind (propertyKey_asRead reads) fun key keyIs =>
    .after fun hasTarget => ?_
  split
  · exact .bind (parameter_asRead reads) fun target targetIs =>
      finish_asRead nofun (.cons keyIs (.cons targetIs .nil))
  · split
    · exact .after fun _ => .of_failAt
    · refine .bind (finish_asRead nofun (.cons keyIs .nil)) fun name nameIs =>
        .after fun hasDefault => ?_
      have finished : ∀ target, AsRead target → Yields
          (finishWith { shorthand := true } .patternProperty [key, target] start) AsRead :=
        fun target targetIs => finishWith_asRead nofun (.cons keyIs (.cons targetIs .nil))
      split
      · exact .bind reads.assignment fun default defaultIs =>
          .bind (finish_asRead nofun (.cons nameIs (.cons defaultIs .nil))) finished
      · exact .bind (.of_pure nameIs) finished

private theorem objectPattern_asRead (reads : ReadTrees rules) : Yields
    (objectPattern rules) AsRead := by
  refine .after fun start => .bind (Yields.commaList ?_).allowingIn
    fun properties propertiesAre => .after fun _ => finish_asRead nofun propertiesAre
  refine .after fun first => .after fun isRest => ?_
  split
  · exact restElement_asRead reads first
  · exact patternProperty_asRead reads

theorem bindingTarget_asRead (reads : ReadTrees rules) : Yields (bindingTarget rules) AsRead := by
  refine .after fun token => ?_
  split
  case h_1 => exact arrayPattern_asRead reads
  case h_2 => exact objectPattern_asRead reads
  case h_3 | h_4 | h_5 | h_6 => exact .after fun _ => bindingOf_asRead token
  case h_7 => exact .of_failAt

theorem parameters_asRead (reads : ReadTrees rules) : Yields (parameters rules) AsRead :=
  .after fun _ => .bind (Yields.commaList (parameter_asRead reads)).allowingIn
    fun _ itemsAre => .after fun _ => finish_asRead nofun itemsAre

theorem block_asRead (reads : ReadTrees rules) : Yields (block rules) AsRead :=
  .after fun _ => .bind (Yields.repeatWhile reads.statement) fun _ statementsAre =>
    .after fun _ => finish_asRead nofun statementsAre

theorem functionBody_asRead (reads : ReadTrees rules) : Yields (functionBody rules) AsRead :=
  (block_asRead reads).allowingIn

theorem definedName_asRead {types : List TokenType} {required : Bool} {missing : ParseError} :
    Yields (definedName types required missing) AsRead := by
  refine .after fun isName => ?_
  split
  · exact .after fun token => bindingOf_asRead token
  · split
    · exact .after fun _ => .of_failAt
    · exact absent_asRead

theorem function_asRead (reads : ReadTrees rules) {kind : Kind} {nameRequired : Bool}
    (notShorthand : kind ≠ .shorthandProperty) :
    Yields (function rules kind nameRequired) AsRead :=
  .after fun _ => .after fun _ => .optionally <| .after fun _ => .after fun _ =>
    .bind definedName_asRead fun _ nameIs => .bind (parameters_asRead reads) fun _ paramsAre =>
      .bind (functionBody_asRead reads) fun _ bodyIs =>
        finishWith_asRead notShorthand (.cons nameIs (.cons paramsAre (.cons bodyIs .nil)))

theorem methodAfter_asRead (reads : ReadTrees rules) {start : Token} {key : Node}
    {mods : Modifiers} {isStatic : Bool} (keyIs : AsRead key) :
    Yields (methodAfter rules start key mods isStatic) AsRead :=
  .bind (parameters_asRead reads) fun _ paramsAre => .bind (functionBody_asRead reads)
    fun _ bodyIs => finishWith_asRead nofun (.cons keyIs (.cons paramsAre (.cons bodyIs .nil)))

private theorem fieldAfter_asRead (reads : ReadTrees rules) {start : Token} {key : Node}
    {isStatic : Bool} (keyIs : AsRead key) :
    Yields (fieldAfter rules start key isStatic) AsRead :=
  .after fun _ => .either reads.assignment absent_asRead fun _ valueIs =>
    .after fun _ => finishWith_asRead nofun (.cons keyIs (.cons valueIs .nil))

theorem keyedMember_asRead (reads : ReadTrees rules) {start : Token} {isStatic : Bool} :
    Yields (keyedMember rules start isStatic) AsRead := by
  refine .after fun mods => .bind (propertyKey_asRead reads) fun key keyIs =>
    .after fun isMethod => ?_
  split
  · exact methodAfter_asRead reads keyIs
  · exact fieldAfter_asRead reads keyIs

private theorem classMember_asRead (reads : ReadTrees rules) : Yields (classMember rules) AsRead
    := by
  refine .after fun start => .after fun next => ?_
  split
  · refine .after fun _ => .after fun isBlock => ?_
    split
    · exact .bind (functionBody_asRead reads) fun _ bodyIs =>
        finish_asRead nofun (.cons bodyIs .nil)
    · exact keyedMember_asRead reads
  · exact keyedMember_asRead reads

private theorem classBody_asRead (reads : ReadTrees rules) : Yields (classBody rules) AsRead := by
  have item : Yields (do
      if ← accept .semicolon then return none
      return some (← classMember rules)) fun member => ∀ node, member = some node → AsRead node := by
    refine .after fun isStray => ?_
    split
    · exact .of_pure nofun
    · refine .bind (classMember_asRead reads) fun member memberIs => .of_pure ?_
      intro node isNode
      cases isNode
      exact memberIs
  refine .after fun start => .bind (Yields.repeatWhile item).allowingIn
    fun members membersAre => finish_asRead nofun ?_
  intro node there
  obtain ⟨member, isMember, isNode⟩ := List.mem_filterMap.mp there
  exact membersAre member isMember node isNode

theorem classDefinition_asRead (reads : ReadTrees rules) {kind : Kind} {nameRequired : Bool}
    (notShorthand : kind ≠ .shorthandProperty) :
    Yields (classDefinition rules kind nameRequired) AsRead :=
  .after fun _ => .bind definedName_asRead fun _ nameIs => .after fun _ =>
    .either reads.leftHandSide absent_asRead fun _ superclassIs =>
      .bind (classBody_asRead reads) fun _ bodyIs =>
        finish_asRead notShorthand (.cons nameIs (.cons superclassIs (.cons bodyIs .nil)))

theorem spreadable_asRead (reads : ReadTrees rules) : Yields (spreadable rules) AsRead := by
  refine .after fun start => .after fun isSpread => ?_
  split
  · exact .bind reads.assignment fun _ valueIs => finish_asRead nofun (.cons valueIs .nil)
  · exact reads.assignment

theorem arguments_asRead (reads : ReadTrees rules) : Yields (arguments rules) AsRead :=
  .after fun _ => .bind (Yields.commaList (spreadable_asRead reads)).allowingIn
    fun _ itemsAre => .after fun _ => finish_asRead nofun itemsAre

private theorem templateParts_asRead (reads : ReadTrees rules) (budget : Nat) :
    Yields (templateParts rules budget) (All AsRead) := by
  induction budget with
  | zero => exact .of_throw
  | succ budget induction =>
      refine .bind reads.expression.allowingIn fun value valueIs => .after fun goes => ?_
      split
      · exact .after fun _ => .bind induction fun _ partsAre =>
          .of_pure (.cons valueIs (.cons .leaf partsAre))
      · exact .after fun _ => .of_pure (.cons valueIs (.cons .leaf .nil))

theorem template_asRead (reads : ReadTrees rules) : Yields (template rules) AsRead := by
  refine .after fun start => .after fun isWhole => ?_
  split
  · exact .after fun _ => finish_asRead nofun (.cons .leaf .nil)
  · exact .after fun _ => .after fun _ => .bind (templateParts_asRead reads _) fun _ partsAre =>
      finish_asRead nofun (.cons .leaf partsAre)

theorem bracketed_asRead (reads : ReadTrees rules) : Yields (bracketed rules) AsRead :=
  .bind reads.expression.allowingIn fun _ indexIs => .after fun _ => .of_pure indexIs

/-- What a reader may give is as it is read. -/
def OptionAsRead (result : Option Node) : Prop :=
  ∀ node, result = some node → AsRead node

private theorem OptionAsRead.of_some {node : Node} (asRead : AsRead node) : OptionAsRead
    (some node) := by
  intro other isOther
  cases isOther
  exact asRead

theorem Yields.some {reader : Reader Node} (yields : Yields reader AsRead) :
    Yields (do return some (← reader)) OptionAsRead :=
  .bind yields fun _ nodeIs => .of_pure (.of_some nodeIs)

private theorem chainLink?_asRead (reads : ReadTrees rules) {allowCall : Bool} {start : Token}
    {object : Node} (objectIs : AsRead object) :
    Yields (chainLink? rules allowCall start object) OptionAsRead := by
  refine .after fun token => ?_
  split
  case h_1 =>
    exact .after fun _ => .after fun _ =>
      .some (finish_asRead nofun (.cons objectIs (.cons .leaf .nil)))
  case h_2 =>
    refine .after fun _ => .after fun isCall => ?_
    split
    · exact .bind (arguments_asRead reads) fun _ argsAre =>
        .some (finishWith_asRead nofun (.cons objectIs (.cons argsAre .nil)))
    · refine .after fun isSubscript => ?_
      split
      · exact .bind (bracketed_asRead reads) fun _ indexIs =>
          .some (finishWith_asRead nofun (.cons objectIs (.cons indexIs .nil)))
      · exact .after fun _ => .some (finishWith_asRead nofun (.cons objectIs (.cons .leaf .nil)))
  case h_3 =>
    exact .after fun _ => .bind (bracketed_asRead reads) fun _ indexIs =>
      .some (finish_asRead nofun (.cons objectIs (.cons indexIs .nil)))
  case h_4 =>
    split
    · exact .bind (arguments_asRead reads) fun _ argsAre =>
        .some (finish_asRead nofun (.cons objectIs (.cons argsAre .nil)))
    · exact .of_pure nofun
  case h_5 | h_6 =>
    exact .bind (template_asRead reads) fun _ quasiIs =>
      .some (finish_asRead nofun (.cons objectIs (.cons quasiIs .nil)))
  case h_7 => exact .of_pure nofun

theorem chain_asRead (reads : ReadTrees rules) {allowCall : Bool} {start : Token}
    {object : Node} (objectIs : AsRead object) :
    Yields (chain rules allowCall start object) AsRead := by
  refine .after fun state => ?_
  generalize state.budget = budget
  induction budget generalizing object with
  | zero => exact .of_throw
  | succ budget induction =>
      refine .bind (chainLink?_asRead reads objectIs) fun longer longerIs => ?_
      split
      case h_1 node => exact induction (longerIs node rfl)
      case h_2 => exact .of_pure objectIs

theorem metaProperty_asRead {start : Token} {word : String} :
    Yields (metaProperty start word) AsRead :=
  .after fun _ => finish_asRead nofun (.cons .leaf .nil)

theorem arrayLiteral_asRead (reads : ReadTrees rules) : Yields (arrayLiteral rules) AsRead :=
  .after fun _ => .bind (Yields.holedList .absent (spreadable_asRead reads)).allowingIn
    fun _ elementsAre => .after fun _ => finish_asRead nofun elementsAre

/-- The name of a shorthand property is a tree. -/
theorem shorthandProperty_asRead {key : Node} {start : Token} (keyIs : AsRead key) :
    Yields (do
      let ident ← finish .ident [key] start
      finish .shorthandProperty [ident] start) AsRead := by
  have identIs : Yields (finish .ident [key] start)
      fun ident => AsRead ident ∧ ident.isTree = true :=
    .after fun _ => .of_pure ⟨.read (All.cons keyIs .nil) nofun, rfl⟩
  refine .bind identIs fun ident is => .after fun _ => .of_pure ?_
  refine .read (All.cons is.1 .nil) fun _ child there => ?_
  rcases List.mem_singleton.mp there with rfl
  exact is.2

private theorem objectMember_asRead (reads : ReadTrees rules) : Yields (objectMember rules) AsRead
    := by
  refine .after fun start => .after fun isSpread => ?_
  split
  · exact .bind reads.assignment fun _ valueIs => finish_asRead nofun (.cons valueIs .nil)
  · refine .after fun mods => .bind (propertyKey_asRead reads) fun key keyIs =>
      .after fun isCall => ?_
    split
    · exact methodAfter_asRead reads keyIs
    · refine .after fun hasValue => ?_
      split
      · exact .bind reads.assignment fun _ valueIs =>
          finish_asRead nofun (.cons keyIs (.cons valueIs .nil))
      · split
        · exact shorthandProperty_asRead keyIs
        · exact .after fun _ => .of_failAt

private theorem objectLiteral_asRead (reads : ReadTrees rules) : Yields
    (objectLiteral rules) AsRead :=
  .after fun _ => .bind (Yields.commaList (objectMember_asRead reads)).allowingIn
    fun _ membersAre => .after fun _ => finish_asRead nofun membersAre

private theorem importExpression_asRead (reads : ReadTrees rules) :
    Yields (importExpression rules) AsRead := by
  refine .after fun token => .after fun isMeta => ?_
  split
  · exact metaProperty_asRead
  · exact .after fun _ => .bind reads.assignment.allowingIn fun _ argumentIs =>
      .after fun _ => finish_asRead nofun (.cons argumentIs .nil)

private theorem parenthesized_asRead (reads : ReadTrees rules) : Yields
    (parenthesized rules) AsRead :=
  .after fun _ => .bind reads.expression.allowingIn fun _ expressionIs =>
    .after fun _ => finish_asRead nofun (.cons expressionIs .nil)

private theorem primary_asRead (reads : ReadTrees rules) : Yields (primary rules) AsRead := by
  refine .after fun token => ?_
  split
  case h_1 | h_2 | h_3 | h_4 | h_5 | h_6 | h_7 | h_19 | h_20 | h_21 =>
    exact .after fun _ => finish_asRead nofun (.cons .leaf .nil)
  case h_8 | h_9 => exact template_asRead reads
  case h_10 | h_11 => exact .after fun _ => finish_asRead nofun .nil
  case h_12 => exact function_asRead reads nofun
  case h_13 => exact classDefinition_asRead reads nofun
  case h_14 => exact parenthesized_asRead reads
  case h_15 => exact arrayLiteral_asRead reads
  case h_16 => exact objectLiteral_asRead reads
  case h_17 => exact importExpression_asRead reads
  case h_18 =>
    refine .after fun isFunction => ?_
    split
    · exact function_asRead reads nofun
    · exact .after fun _ => finish_asRead nofun (.cons .leaf .nil)
  case h_22 | h_23 => exact .of_failAt

theorem chainHead_asRead (reads : ReadTrees rules) : Yields (chainHead rules) AsRead := by
  refine .after fun isNew => ?_
  split
  · exact reads.construction
  · exact primary_asRead reads

theorem construction_asRead (reads : ReadTrees rules) : Yields (construction rules) AsRead := by
  refine .after fun start => .after fun isMeta => ?_
  split
  · exact metaProperty_asRead
  · exact .after fun _ => .bind (chainHead_asRead reads) fun _ headIs =>
      .bind (chain_asRead reads headIs) fun _ calleeIs => .after fun _ =>
        .either (arguments_asRead reads) absent_asRead fun _ argsAre =>
          finish_asRead nofun (.cons calleeIs (.cons argsAre .nil))

theorem leftHandSide_asRead (reads : ReadTrees rules) : Yields (leftHandSide rules) AsRead :=
  .after fun _ => .bind (chainHead_asRead reads) fun _ headIs => chain_asRead reads headIs

theorem prefixed_asRead (reads : ReadTrees rules) {kind : Kind} {withOp : Bool}
    (notShorthand : kind ≠ .shorthandProperty) : Yields (prefixed rules kind withOp) AsRead := by
  refine .after fun token => .bind reads.unary fun operand operandIs =>
    finish_asRead notShorthand ?_
  cases withOp with
  | true => exact .cons .leaf (.cons operandIs .nil)
  | false => exact .cons operandIs .nil

theorem unary_asRead (reads : ReadTrees rules) : Yields (unary rules) AsRead := by
  refine .after fun token => ?_
  split
  · exact prefixed_asRead reads nofun
  · split
    · exact prefixed_asRead reads nofun
    · split
      · exact prefixed_asRead reads nofun
      · refine .bind reads.leftHandSide fun operand operandIs => .after fun _ =>
          .after fun _ => ?_
        split
        · exact .after fun _ => finish_asRead nofun (.cons operandIs (.cons .leaf .nil))
        · exact .of_pure operandIs

private theorem climb_asRead (reads : ReadTrees rules) {least : Nat} {start : Token} (budget : Nat)
    {left : Node} (leftIs : AsRead left) :
    Yields (climb rules least start budget left) AsRead := by
  induction budget generalizing left with
  | zero => exact .of_throw
  | succ budget induction =>
      refine .after fun operator => ?_
      split
      · exact .of_pure leftIs
      · refine .after fun _ => .bind (reads.binary _) fun right rightIs => ?_
        refine .bind (finish_asRead ?_ (.cons leftIs (.cons .leaf (.cons rightIs .nil))))
          fun joined joinedIs => induction joinedIs
        split <;> exact nofun

theorem binary_asRead (reads : ReadTrees rules) (least : Nat) :
    Yields (binary rules least) AsRead :=
  .after fun _ => .bind reads.unary fun _ leftIs => .after fun _ => climb_asRead reads _ leftIs

theorem conditional_asRead (reads : ReadTrees rules) : Yields (conditional rules) AsRead := by
  refine .after fun start => .bind (reads.binary 1) fun test testIs => .after fun isChoice => ?_
  split
  · exact .bind reads.assignment.allowingIn fun _ consequentIs => .after fun _ =>
      .bind reads.assignment fun _ alternateIs =>
        finish_asRead nofun (.cons testIs (.cons consequentIs (.cons alternateIs .nil)))
  · exact .of_pure testIs

private theorem yieldExpression_asRead (reads : ReadTrees rules) :
    Yields (yieldExpression rules) AsRead :=
  .after fun _ => .after fun _ => .after fun _ => .either absent_asRead reads.assignment
    fun _ valueIs => finishWith_asRead nofun (.cons valueIs .nil)

private theorem arrowParameters_asRead (reads : ReadTrees rules) :
    Yields (arrowParameters rules) AsRead := by
  refine .after fun isName => ?_
  split
  · exact .after fun token => .bind (bindingOf_asRead token) fun _ nameIs =>
      finish_asRead nofun (.cons nameIs .nil)
  · exact parameters_asRead reads

private theorem arrowFunction_asRead (reads : ReadTrees rules) : Yields
    (arrowFunction rules) AsRead :=
  .after fun _ => .after fun _ => .after fun _ => .optionally <|
    .bind (arrowParameters_asRead reads) fun _ paramsAre => .after fun _ => .after fun _ =>
      .either (functionBody_asRead reads) reads.assignment fun _ bodyIs =>
        finishWith_asRead nofun (.cons paramsAre (.cons bodyIs .nil))

theorem assignment_asRead (reads : ReadTrees rules) : Yields (assignment rules) AsRead := by
  refine .after fun start => ?_
  split
  · exact yieldExpression_asRead reads
  · refine .after fun isArrow => ?_
    split
    · exact arrowFunction_asRead reads
    · refine .bind (conditional_asRead reads) fun left leftIs => .after fun op => ?_
      split
      · exact .after fun _ => .either (asTarget_asRead leftIs) (.of_pure leftIs)
          fun _ targetIs => .bind reads.assignment fun _ valueIs =>
            finish_asRead nofun (.cons targetIs (.cons .leaf (.cons valueIs .nil)))
      · exact .of_pure leftIs

theorem expression_asRead (reads : ReadTrees rules) : Yields (expression rules) AsRead := by
  refine .after fun start => .bind (Yields.commaItems reads.assignment)
    fun items itemsAre => ?_
  split
  case h_1 single => exact .of_pure (itemsAre single List.mem_cons_self)
  case h_2 => exact finish_asRead nofun itemsAre

end Grammar

end ScriptFold
