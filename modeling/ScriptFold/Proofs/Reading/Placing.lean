import ScriptFold.Proofs.Reading.Places

/-!
# Scripts are placed in their source

Every reader of the grammar places what it reads in the source it reads from, given that the
rules below it do, and so do the rules of every level.
-/

namespace ScriptFold

namespace Grammar

variable {source : Source} {rules : Rules}

/-! ### Keys, targets and parameters -/

theorem propertyKey_placing (placing : PlacingRules source rules) :
    Placing source (propertyKey rules) := by
  apply Leads.opening propertyKey_needs
  intro token inside
  apply Leads.ite
  · exact fun _ => .after fun _ => .of_pure .leaf
  intro _
  split
  · exact .after fun _ => .of_pure .leaf
  iterate 3 exact .after fun _ => finish_placing inside (.single .leaf)
  · apply Leads.after
    intro bracket
    apply Leads.bind placing.assignment.allowingIn
    intro expression expressionIs
    exact .after fun _ => finish_placing inside (.single expressionIs)
  · exact .of_failAt

theorem restElement_placing (placing : PlacingRules source rules) {start : Token}
    (inside : start.start < source.text.length) : Placing source (restElement rules start) :=
  .bind placing.target fun _ targetIs => finish_placing inside (.single targetIs)

theorem parameter_placing (needs : RulesNeedTokens rules) (placing : PlacingRules source rules) :
    Placing source (parameter rules) := by
  apply Leads.opening (parameter_needs needs)
  intro start inside
  apply Leads.after
  intro isRest
  apply Leads.ite
  · exact fun _ => restElement_placing placing inside
  intro _
  apply Leads.bind placing.target
  intro target targetIs
  apply Leads.after
  intro hasDefault
  apply Leads.ite
  · intro _
    apply Leads.bind placing.assignment
    intro default defaultIs
    exact finish_placing inside (.cons targetIs (.single defaultIs))
  · exact fun _ => .of_pure targetIs

theorem arrayPattern_placing (needs : RulesNeedTokens rules) (placing : PlacingRules source rules) :
    Placing source (arrayPattern rules) := by
  apply Leads.expect (by decide)
  intro start inside
  apply Leads.bind (Leads.holedList .absent (parameter_placing needs placing)).allowingIn
  intro elements elementsAre
  exact .after fun _ => finish_placing inside elementsAre

theorem patternProperty_placing (needs : RulesNeedTokens rules)
    (placing : PlacingRules source rules) : Placing source (patternProperty rules) := by
  apply Leads.opening patternProperty_needs
  intro start inside
  apply Leads.bind (propertyKey_placing placing)
  intro key keyIs
  apply Leads.after
  intro hasTarget
  apply Leads.ite
  · intro _
    apply Leads.bind (parameter_placing needs placing)
    intro target targetIs
    exact finish_placing inside (.cons keyIs (.single targetIs))
  intro _
  apply Leads.ite
  · exact fun _ => .after fun _ => .of_failAt
  intro _
  apply Leads.bind (finish_placing inside (.single keyIs))
  intro name nameIs
  apply Leads.after
  intro hasDefault
  have ends : ∀ target, target.Placed source.Holds → Placing source
      (finishWith { shorthand := true } .patternProperty [key, target] start) :=
    fun target targetIs => finishWith_placing inside (.cons keyIs (.single targetIs))
  apply Leads.ite
  · intro _
    apply Leads.bind placing.assignment
    intro default defaultIs
    exact .bind (finish_placing inside (.cons nameIs (.single defaultIs))) ends
  · exact fun _ => ends name nameIs

private theorem objectPattern_placing (needs : RulesNeedTokens rules)
    (placing : PlacingRules source rules) : Placing source (objectPattern rules) := by
  have item : Placing source (do
      let first ← current
      if ← accept .ellipsis then restElement rules first else patternProperty rules) := by
    apply Leads.opening patternItem_needs
    intro first inside
    apply Leads.after
    intro isRest
    apply Leads.ite
    · exact fun _ => restElement_placing placing inside
    · exact fun _ => patternProperty_placing needs placing
  apply Leads.expect (by decide)
  intro start inside
  apply Leads.bind (Leads.commaList item).allowingIn
  intro properties propertiesAre
  exact .after fun _ => finish_placing inside propertiesAre

theorem bindingTarget_placing (needs : RulesNeedTokens rules)
    (placing : PlacingRules source rules) : Placing source (bindingTarget rules) := by
  apply Leads.opening bindingTarget_needs
  intro token inside
  split
  · exact arrayPattern_placing needs placing
  · exact objectPattern_placing needs placing
  iterate 4 exact .after fun _ => bindingOf_placing inside
  · exact .of_failAt

theorem parameters_placing (needs : RulesNeedTokens rules) (placing : PlacingRules source rules) :
    Placing source (parameters rules) := by
  apply Leads.expect (by decide)
  intro start inside
  apply Leads.bind (Leads.commaList (parameter_placing needs placing)).allowingIn
  intro items itemsAre
  exact .after fun _ => finish_placing inside itemsAre

/-! ### Functions, methods and classes -/

theorem block_placing (placing : PlacingRules source rules) : Placing source (block rules) := by
  apply Leads.expect (by decide)
  intro start inside
  apply Leads.bind (Leads.repeatWhile placing.statement)
  intro statements statementsAre
  exact .after fun _ => finish_placing inside statementsAre

theorem functionBody_placing (placing : PlacingRules source rules) :
    Placing source (functionBody rules) :=
  (block_placing placing).allowingIn

theorem definedName_placing {types : List TokenType} (without : types.contains .endOfInput = false)
    {required : Bool} {missing : ParseError} : Placing source (definedName types required missing) := by
  apply Leads.checked without
  · exact .advance_begun fun token inside => bindingOf_placing inside
  · apply Leads.ite
    · exact fun _ => .after fun _ => .of_failAt
    · exact fun _ => absent_placing

theorem function_placing (needs : RulesNeedTokens rules) (placing : PlacingRules source rules)
    {kind : Kind} {nameRequired : Bool} : Placing source (function rules kind nameRequired) := by
  apply Leads.opening function_needs
  intro start inside
  apply Leads.after
  intro isAsync
  apply Leads.optionally
  apply Leads.after
  intro word
  apply Leads.after
  intro isGenerator
  apply Leads.bind (definedName_placing rfl)
  intro name nameIs
  apply Leads.bind (parameters_placing needs placing)
  intro params paramsAre
  apply Leads.bind (functionBody_placing placing)
  intro body bodyIs
  exact finishWith_placing inside (.cons nameIs (.cons paramsAre (.single bodyIs)))

theorem methodAfter_placing (needs : RulesNeedTokens rules) (placing : PlacingRules source rules)
    {start : Token} (inside : start.start < source.text.length) {key : Node}
    (keyIs : key.Placed source.Holds) {mods : Modifiers} {isStatic : Bool} :
    Placing source (methodAfter rules start key mods isStatic) := by
  apply Leads.bind (parameters_placing needs placing)
  intro params paramsAre
  apply Leads.bind (functionBody_placing placing)
  intro body bodyIs
  exact finishWith_placing inside (.cons keyIs (.cons paramsAre (.single bodyIs)))

private theorem fieldAfter_placing (placing : PlacingRules source rules) {start : Token}
    (inside : start.start < source.text.length) {key : Node} (keyIs : key.Placed source.Holds)
    {isStatic : Bool} : Placing source (fieldAfter rules start key isStatic) := by
  apply Leads.after
  intro hasValue
  apply Leads.either placing.assignment absent_placing
  intro value valueIs
  exact .after fun _ => finishWith_placing inside (.cons keyIs (.single valueIs))

theorem keyedMember_placing (needs : RulesNeedTokens rules) (placing : PlacingRules source rules)
    {start : Token} (inside : start.start < source.text.length) {isStatic : Bool} :
    Placing source (keyedMember rules start isStatic) := by
  apply Leads.after
  intro mods
  apply Leads.bind (propertyKey_placing placing)
  intro key keyIs
  apply Leads.after
  intro isMethod
  apply Leads.ite
  · exact fun _ => methodAfter_placing needs placing inside keyIs
  · exact fun _ => fieldAfter_placing placing inside keyIs

private theorem classMember_placing (needs : RulesNeedTokens rules) (placing
    : PlacingRules source rules) :
    Placing source (classMember rules) := by
  apply Leads.opening classMember_needs
  intro start inside
  apply Leads.after
  intro next
  apply Leads.ite
  · intro _
    apply Leads.after
    intro word
    apply Leads.after
    intro isBlock
    apply Leads.ite
    · intro _
      apply Leads.bind (functionBody_placing placing)
      exact fun body bodyIs => finish_placing inside (.single bodyIs)
    · exact fun _ => keyedMember_placing needs placing inside
  · exact fun _ => keyedMember_placing needs placing inside

private theorem classBody_placing (needs : RulesNeedTokens rules) (placing
    : PlacingRules source rules) :
    Placing source (classBody rules) := by
  have item : Leads (State.Within source) (do
      if ← accept .semicolon then return none
      return some (← classMember rules))
      (fun member => ∀ node, member = some node → node.Placed source.Holds)
      (State.Within source) := by
    apply Leads.after
    intro isStray
    apply Leads.ite
    · exact fun _ => .of_pure nofun
    · exact fun _ => (classMember_placing needs placing).some
  apply Leads.expect (by decide)
  intro start inside
  apply Leads.bind (Leads.repeatWhile item).allowingIn
  intro members membersAre
  apply finish_placing inside
  intro node there
  obtain ⟨member, isMember, isNode⟩ := List.mem_filterMap.mp there
  exact membersAre member isMember node isNode

theorem classDefinition_placing (needs : RulesNeedTokens rules)
    (placing : PlacingRules source rules) {kind : Kind} {nameRequired : Bool} :
    Placing source (classDefinition rules kind nameRequired) := by
  apply Leads.expect (by decide)
  intro start inside
  apply Leads.bind (definedName_placing rfl)
  intro name nameIs
  apply Leads.after
  intro hasSuperclass
  apply Leads.either placing.leftHandSide absent_placing
  intro superclass superclassIs
  apply Leads.bind (classBody_placing needs placing)
  intro body bodyIs
  exact finish_placing inside (.cons nameIs (.cons superclassIs (.single bodyIs)))

/-! ### Chains and primary expressions -/

theorem spreadable_placing (needs : RulesNeedTokens rules) (placing : PlacingRules source rules) :
    Placing source (spreadable rules) := by
  apply Leads.opening (spreadable_needs needs)
  intro start inside
  apply Leads.after
  intro isSpread
  apply Leads.ite
  · intro _
    apply Leads.bind placing.assignment
    exact fun value valueIs => finish_placing inside (.single valueIs)
  · exact fun _ => placing.assignment

theorem arguments_placing (needs : RulesNeedTokens rules) (placing : PlacingRules source rules) :
    Placing source (arguments rules) := by
  apply Leads.expect (by decide)
  intro start inside
  apply Leads.bind (Leads.commaList (spreadable_placing needs placing)).allowingIn
  intro items itemsAre
  exact .after fun _ => finish_placing inside itemsAre

private theorem templateParts_placing (placing : PlacingRules source rules) (budget : Nat) :
    Leads (State.Within source) (templateParts rules budget) (ArePlaced source.Holds)
      (State.Within source) := by
  induction budget with
  | zero => exact .of_throw
  | succ budget induction =>
      apply Leads.bind placing.expression.allowingIn
      intro value valueIs
      apply Leads.after
      intro goesOn
      apply Leads.ite
      · intro _
        apply Leads.after
        intro piece
        apply Leads.bind induction
        exact fun rest restAre => .of_pure (.cons valueIs (.cons .leaf restAre))
      · intro _
        apply Leads.after
        exact fun tail => .of_pure (.cons valueIs (.single .leaf))

theorem template_placing (placing : PlacingRules source rules) :
    Placing source (template rules) := by
  apply Leads.opening template_needs
  intro start inside
  apply Leads.after
  intro isWhole
  apply Leads.ite
  · intro _
    exact .after fun _ => finish_placing inside (.single .leaf)
  · intro _
    apply Leads.after
    intro head
    apply Leads.after
    intro state
    apply Leads.bind (templateParts_placing placing state.budget)
    exact fun parts partsAre => finish_placing inside (.cons .leaf partsAre)

theorem bracketed_placing (placing : PlacingRules source rules) :
    Placing source (bracketed rules) :=
  .bind placing.expression.allowingIn fun _ indexIs => .after fun _ => .of_pure indexIs

theorem chainLink?_placing (needs : RulesNeedTokens rules) (placing : PlacingRules source rules)
    {allowCall : Bool} {start : Token} (inside : start.start < source.text.length) {object : Node}
    (objectIs : object.Placed source.Holds) :
    Leads (State.Within source) (chainLink? rules allowCall start object)
      (fun link => ∀ node, link = some node → node.Placed source.Holds) (State.Within source) := by
  have finished : ∀ {kind flags} {part : Node}, part.Placed source.Holds →
      Placing source (finishWith flags kind [object, part] start) :=
    fun partIs => finishWith_placing inside (.cons objectIs (.single partIs))
  apply Leads.after
  intro token
  split
  · exact .after fun _ => .after fun name => (finished .leaf).some
  · apply Leads.after
    intro dot
    apply Leads.after
    intro isCall
    apply Leads.ite
    · intro _
      apply Leads.bind (arguments_placing needs placing)
      exact fun args argsAre => (finished argsAre).some
    intro _
    apply Leads.after
    intro isSubscript
    apply Leads.ite
    · intro _
      apply Leads.bind (bracketed_placing placing)
      exact fun index indexIs => (finished indexIs).some
    · exact fun _ => .after fun name => (finished .leaf).some
  · apply Leads.after
    intro bracket
    apply Leads.bind (bracketed_placing placing)
    exact fun index indexIs => (finished indexIs).some
  · apply Leads.ite
    · intro _
      apply Leads.bind (arguments_placing needs placing)
      exact fun args argsAre => (finished argsAre).some
    · exact fun _ => .of_pure nofun
  iterate 2
    apply Leads.bind (template_placing placing)
    exact fun quasi quasiIs => (finished quasiIs).some
  · exact .of_pure nofun

private theorem chainFrom_placing (needs : RulesNeedTokens rules) (placing
    : PlacingRules source rules)
    {allowCall : Bool} {start : Token} (inside : start.start < source.text.length) (budget : Nat)
    {object : Node} (objectIs : object.Placed source.Holds) :
    Placing source (chainFrom rules allowCall start budget object) := by
  induction budget generalizing object with
  | zero => exact .of_throw
  | succ budget induction =>
      apply Leads.bind (chainLink?_placing needs placing inside objectIs)
      intro link linkIs
      cases link with
      | none => exact .of_pure objectIs
      | some longer => exact induction (linkIs longer rfl)

theorem chain_placing (needs : RulesNeedTokens rules) (placing : PlacingRules source rules)
    {allowCall : Bool} {start : Token} (inside : start.start < source.text.length) {object : Node}
    (objectIs : object.Placed source.Holds) :
    Placing source (chain rules allowCall start object) :=
  .after fun state => chainFrom_placing needs placing inside state.budget objectIs

theorem metaProperty_placing {start : Token} (inside : start.start < source.text.length)
    {word : String} : Placing source (metaProperty start word) :=
  .after fun _ => finish_placing inside (.single .leaf)

theorem arrayLiteral_placing (needs : RulesNeedTokens rules) (placing : PlacingRules source rules) :
    Placing source (arrayLiteral rules) := by
  apply Leads.expect (by decide)
  intro start inside
  apply Leads.bind (Leads.holedList .absent (spreadable_placing needs placing)).allowingIn
  intro elements elementsAre
  exact .after fun _ => finish_placing inside elementsAre

private theorem objectMember_placing (needs : RulesNeedTokens rules) (placing
    : PlacingRules source rules) :
    Placing source (objectMember rules) := by
  apply Leads.opening objectMember_needs
  intro start inside
  apply Leads.after
  intro isSpread
  apply Leads.ite
  · intro _
    apply Leads.bind placing.assignment
    exact fun value valueIs => finish_placing inside (.single valueIs)
  intro _
  apply Leads.after
  intro mods
  apply Leads.bind (propertyKey_placing placing)
  intro key keyIs
  apply Leads.after
  intro isCall
  apply Leads.ite
  · exact fun _ => methodAfter_placing needs placing inside keyIs
  intro _
  apply Leads.after
  intro hasValue
  apply Leads.ite
  · intro _
    apply Leads.bind placing.assignment
    exact fun value valueIs => finish_placing inside (.cons keyIs (.single valueIs))
  intro _
  split
  · apply Leads.bind (finish_placing inside (.single .leaf))
    exact fun ident identIs => finish_placing inside (.single identIs)
  · exact .after fun _ => .of_failAt

theorem objectLiteral_placing (needs : RulesNeedTokens rules)
    (placing : PlacingRules source rules) : Placing source (objectLiteral rules) := by
  apply Leads.expect (by decide)
  intro start inside
  apply Leads.bind (Leads.commaList (objectMember_placing needs placing)).allowingIn
  intro members membersAre
  exact .after fun _ => finish_placing inside membersAre

private theorem importExpression_placing (placing : PlacingRules source rules) :
    PlacingOnce source (importExpression rules) := by
  apply Leads.advance_begun
  intro token inside
  apply Leads.after
  intro isMeta
  apply Leads.ite
  · exact fun _ => metaProperty_placing inside
  intro _
  apply Leads.after
  intro bracket
  apply Leads.bind placing.assignment.allowingIn
  exact fun argument argumentIs => .after fun _ => finish_placing inside (.single argumentIs)

private theorem parenthesized_placing (placing : PlacingRules source rules) :
    PlacingOnce source (parenthesized rules) := by
  apply Leads.advance_begun
  intro token inside
  apply Leads.bind placing.expression.allowingIn
  exact fun inner innerIs => .after fun _ => finish_placing inside (.single innerIs)

private theorem primary_placing (needs : RulesNeedTokens rules) (placing
    : PlacingRules source rules) :
    Placing source (primary rules) := by
  apply Leads.begun primary_needs
  apply Leads.current_begun
  intro token inside
  split
  iterate 7 exact .within (.after fun _ => finish_placing inside (.single .leaf))
  iterate 2 exact .within (template_placing placing)
  iterate 2 exact .within (.after fun _ => finish_placing inside .nil)
  · exact .within (function_placing needs placing)
  · exact .within (classDefinition_placing needs placing)
  · exact parenthesized_placing placing
  · exact .within (arrayLiteral_placing needs placing)
  · exact .within (objectLiteral_placing needs placing)
  · exact importExpression_placing placing
  · apply Leads.within
    apply Leads.after
    intro isFunction
    apply Leads.ite
    · exact fun _ => function_placing needs placing
    · exact fun _ => .after fun _ => finish_placing inside (.single .leaf)
  iterate 3 exact .within (.after fun _ => finish_placing inside (.single .leaf))
  iterate 2 exact .of_failAt

theorem chainHead_placing (needs : RulesNeedTokens rules) (placing : PlacingRules source rules) :
    Placing source (chainHead rules) :=
  .after fun _ => .ite (fun _ => placing.construction) fun _ => primary_placing needs placing

theorem construction_placing (needs : RulesNeedTokens rules) (placing : PlacingRules source rules) :
    Placing source (construction rules) := by
  apply Leads.expect (by decide)
  intro start inside
  apply Leads.after
  intro isMeta
  apply Leads.ite
  · exact fun _ => metaProperty_placing inside
  intro _
  apply Leads.opening (.still fun _ => .bind chainHead_needs)
  intro calleeStart calleeInside
  apply Leads.bind (chainHead_placing needs placing)
  intro head headIs
  apply Leads.bind (chain_placing needs placing calleeInside headIs)
  intro callee calleeIs
  apply Leads.after
  intro hasArguments
  apply Leads.either (arguments_placing needs placing) absent_placing
  exact fun args argsAre => finish_placing inside (.cons calleeIs (.single argsAre))

theorem leftHandSide_placing (needs : RulesNeedTokens rules) (placing : PlacingRules source rules) :
    Placing source (leftHandSide rules) := by
  apply Leads.opening leftHandSide_needs
  intro start inside
  apply Leads.bind (chainHead_placing needs placing)
  exact fun head headIs => chain_placing needs placing inside headIs

/-! ### Operators -/

theorem prefixed_placing (placing : PlacingRules source rules) {kind : Kind} {withOp : Bool} :
    PlacingOnce source (prefixed rules kind withOp) := by
  apply Leads.advance_begun
  intro token inside
  apply Leads.bind placing.unary
  intro operand operandIs
  apply finish_placing inside
  split
  · exact .cons .leaf (.single operandIs)
  · exact .single operandIs

theorem unary_placing (needs : RulesNeedTokens rules) (placing : PlacingRules source rules) :
    Placing source (unary rules) := by
  apply Leads.begun (unary_needs needs)
  apply Leads.current_begun
  intro token inside
  apply Leads.ite
  · exact fun _ => prefixed_placing placing
  intro _
  apply Leads.ite
  · exact fun _ => prefixed_placing placing
  intro _
  apply Leads.ite
  · exact fun _ => prefixed_placing placing
  intro _
  apply Leads.within
  apply Leads.bind placing.leftHandSide
  intro operand operandIs
  apply Leads.after
  intro isUpdate
  apply Leads.after
  intro next
  apply Leads.ite
  · exact fun _ => .after fun _ => finish_placing inside (.cons operandIs (.single .leaf))
  · exact fun _ => .of_pure operandIs

private theorem climb_placing (placing : PlacingRules source rules) {least : Nat} {start : Token}
    (inside : start.start < source.text.length) (budget : Nat) {left : Node}
    (leftIs : left.Placed source.Holds) : Placing source (climb rules least start budget left) := by
  induction budget generalizing left with
  | zero => exact .of_throw
  | succ budget induction =>
      apply Leads.after
      intro operator
      cases operator with
      | none => exact .of_pure leftIs
      | some found =>
          apply Leads.after
          intro op
          apply Leads.bind (placing.binary _)
          intro right rightIs
          apply Leads.bind (finish_placing inside (.cons leftIs (.cons .leaf (.single rightIs))))
          exact fun joined joinedIs => induction joinedIs

theorem binary_placing (needs : RulesNeedTokens rules) (placing : PlacingRules source rules)
    (least : Nat) : Placing source (binary rules least) := by
  apply Leads.opening (binary_needs needs least)
  intro start inside
  apply Leads.bind placing.unary
  intro left leftIs
  exact .after fun state => climb_placing placing inside state.budget leftIs

theorem conditional_placing (needs : RulesNeedTokens rules) (placing : PlacingRules source rules) :
    Placing source (conditional rules) := by
  apply Leads.opening (conditional_needs needs)
  intro start inside
  apply Leads.bind (placing.binary 1)
  intro test testIs
  apply Leads.after
  intro isConditional
  apply Leads.ite
  · intro _
    apply Leads.bind placing.assignment.allowingIn
    intro consequent consequentIs
    apply Leads.after
    intro colon
    apply Leads.bind placing.assignment
    intro alternate alternateIs
    exact finish_placing inside (.cons testIs (.cons consequentIs (.single alternateIs)))
  · exact fun _ => .of_pure testIs

/-! ### Assignments -/

theorem yieldExpression_placing (placing : PlacingRules source rules) :
    Placing source (yieldExpression rules) := by
  apply Leads.expect (by decide)
  intro start inside
  apply Leads.after
  intro isDelegate
  apply Leads.after
  intro token
  apply Leads.either absent_placing placing.assignment
  exact fun value valueIs => finishWith_placing inside (.single valueIs)

private theorem arrowParameters_placing (needs : RulesNeedTokens rules)
    (placing : PlacingRules source rules) : Placing source (arrowParameters rules) := by
  apply Leads.checked rfl
  · apply Leads.advance_begun
    intro token inside
    apply Leads.bind (bindingOf_placing inside)
    exact fun name nameIs => finish_placing inside (.single nameIs)
  · exact parameters_placing needs placing

private theorem arrowFunction_placing (needs : RulesNeedTokens rules)
    (placing : PlacingRules source rules) : Placing source (arrowFunction rules) := by
  apply Leads.opening arrowFunction_needs
  intro start inside
  apply Leads.after
  intro next
  apply Leads.after
  intro isNamed
  apply Leads.optionally
  apply Leads.bind (arrowParameters_placing needs placing)
  intro params paramsAre
  apply Leads.after
  intro arrow
  apply Leads.after
  intro isBlock
  apply Leads.either (functionBody_placing placing) placing.assignment
  exact fun body bodyIs => finishWith_placing inside (.cons paramsAre (.single bodyIs))

theorem assignment_placing (needs : RulesNeedTokens rules) (placing : PlacingRules source rules) :
    Placing source (assignment rules) := by
  apply Leads.opening (assignment_needs needs)
  intro start inside
  apply Leads.ite
  · exact fun _ => yieldExpression_placing placing
  intro _
  apply Leads.after
  intro isArrow
  apply Leads.ite
  · exact fun _ => arrowFunction_placing needs placing
  intro _
  apply Leads.bind (conditional_placing needs placing)
  intro left leftIs
  apply Leads.after
  intro op
  apply Leads.ite
  · intro _
    apply Leads.after
    intro token
    apply Leads.either (asTarget_placing leftIs) (.of_pure leftIs)
    intro target targetIs
    apply Leads.bind placing.assignment
    intro value valueIs
    exact finish_placing inside (.cons targetIs (.cons .leaf (.single valueIs)))
  · exact fun _ => .of_pure leftIs

theorem expression_placing (needs : RulesNeedTokens rules) (placing : PlacingRules source rules) :
    Placing source (expression rules) := by
  apply Leads.opening (expression_needs needs)
  intro start inside
  apply Leads.bind (Leads.commaItems placing.assignment)
  intro items itemsAre
  split
  · exact .of_pure (itemsAre _ List.mem_cons_self)
  · exact finish_placing inside itemsAre

/-! ### Declarations and expression statements -/

theorem declaration_placing (needs : RulesNeedTokens rules) (placing : PlacingRules source rules) :
    PlacingOnce source (declaration rules) := by
  have declarator : Placing source (do
      let first ← current
      let target ← rules.target
      let initial ← if ← accept .assign then rules.assignment else pure .absent
      finish .declarator [target, initial] first) := by
    apply Leads.opening (declarator_needs needs)
    intro first inside
    apply Leads.bind placing.target
    intro target targetIs
    apply Leads.after
    intro hasInitial
    apply Leads.either placing.assignment absent_placing
    exact fun initial initialIs => finish_placing inside (.cons targetIs (.single initialIs))
  apply Leads.advance_begun
  intro start inside
  apply Leads.bind (Leads.commaItems declarator)
  exact fun declarators declaratorsAre => finish_placing inside (.cons .leaf declaratorsAre)

theorem declarationStatement_placing (needs : RulesNeedTokens rules)
    (placing : PlacingRules source rules) : PlacingOnce source (declarationStatement rules) := by
  apply Leads.current_begun
  intro start inside
  apply Leads.bind (declaration_placing needs placing)
  exact fun parts partsAre => .after fun _ => finish_placing inside partsAre.children

theorem expressionStatement_placing (needs : RulesNeedTokens rules)
    (placing : PlacingRules source rules) : Placing source (expressionStatement rules) := by
  apply Leads.opening (expressionStatement_needs needs)
  intro start inside
  apply Leads.bind placing.expression.allowingIn
  exact fun value valueIs => .after fun _ => finish_placing inside (.single valueIs)

theorem parenTest_placing (placing : PlacingRules source rules) :
    Placing source (parenTest rules) := by
  apply Leads.after
  intro bracket
  apply Leads.bind placing.expression.allowingIn
  exact fun test testIs => .after fun _ => .of_pure testIs

/-! ### Branches and loops -/

theorem ifStatement_placing (placing : PlacingRules source rules) :
    Placing source (ifStatement rules) := by
  apply Leads.expect (by decide)
  intro start inside
  apply Leads.bind (parenTest_placing placing)
  intro test testIs
  apply Leads.bind placing.statement
  intro consequent consequentIs
  apply Leads.after
  intro hasElse
  apply Leads.either placing.statement absent_placing
  intro alternate alternateIs
  exact finish_placing inside (.cons testIs (.cons consequentIs (.single alternateIs)))

theorem whileStatement_placing (placing : PlacingRules source rules) :
    Placing source (whileStatement rules) := by
  apply Leads.expect (by decide)
  intro start inside
  apply Leads.bind (parenTest_placing placing)
  intro test testIs
  apply Leads.bind placing.statement
  exact fun body bodyIs => finish_placing inside (.cons testIs (.single bodyIs))

theorem doWhileStatement_placing (placing : PlacingRules source rules) :
    Placing source (doWhileStatement rules) := by
  apply Leads.expect (by decide)
  intro start inside
  apply Leads.bind placing.statement
  intro body bodyIs
  apply Leads.after
  intro word
  apply Leads.bind (parenTest_placing placing)
  intro test testIs
  exact .after fun _ => finish_placing inside (.cons bodyIs (.single testIs))

private theorem forInitial_needs (needs : RulesNeedTokens rules) : NeedsToken (forInitial rules)
    := by
  apply NeedsToken.current
  intro token isEnd
  apply NeedsToken.still
  intro next
  simp only [isEnd]
  exact .allowingIn needs.expression

theorem forInitial_placing (needs : RulesNeedTokens rules) (placing : PlacingRules source rules) :
    Placing source (forInitial rules) := by
  apply Leads.begun (forInitial_needs needs)
  apply Leads.current_begun
  intro token inside
  apply Leads.still
  intro next
  apply Leads.ite
  · exact fun _ => .within absent_placing
  intro _
  apply Leads.allowingIn_begun
  apply Leads.ite
  · exact fun _ => declaration_placing needs placing
  · exact fun _ => .within placing.expression

theorem forEach_placing (placing : PlacingRules source rules) {start : Token}
    (inside : start.start < source.text.length) {isAwait : Bool} {initial : Node}
    (initialIs : initial.Placed source.Holds) :
    Placing source (forEach rules start isAwait initial) := by
  apply Leads.after
  intro word
  apply Leads.either (.of_pure initialIs) (asTarget_placing initialIs)
  intro left leftIs
  have items : Placing source
      (if (word.type == .kwIn) = true then rules.expression else rules.assignment) :=
    .ite (fun _ => placing.expression) fun _ => placing.assignment
  apply Leads.bind items.allowingIn
  intro right rightIs
  apply Leads.after
  intro bracket
  apply Leads.bind placing.statement
  exact fun body bodyIs => finishWith_placing inside (.cons leftIs (.cons rightIs (.single bodyIs)))

theorem forParts_placing (placing : PlacingRules source rules) {start : Token}
    (inside : start.start < source.text.length) {initial : Node}
    (initialIs : initial.Placed source.Holds) :
    Placing source (forParts rules start initial) := by
  have absentOr : ∀ closer, Placing source
      (check [closer] >>= fun closes => if closes then pure .absent else rules.expression) :=
    fun closer => .after fun _ => .ite (fun _ => absent_placing) fun _ => placing.expression
  apply Leads.after
  intro semicolon
  refine Leads.bind (Leads.allowingIn ?parts)
    fun parts (partsAre : parts.1.Placed source.Holds ∧ parts.2.Placed source.Holds) => ?ends
  case parts =>
    apply Leads.bind (absentOr .semicolon)
    intro test testIs
    apply Leads.after
    intro semicolon
    apply Leads.bind (absentOr .closeParen)
    exact fun update updateIs => .of_pure ⟨testIs, updateIs⟩
  case ends =>
    apply Leads.after
    intro bracket
    apply Leads.bind placing.statement
    intro body bodyIs
    exact finish_placing inside
      (.cons initialIs (.cons partsAre.1 (.cons partsAre.2 (.single bodyIs))))

theorem forStatement_placing (needs : RulesNeedTokens rules) (placing : PlacingRules source rules) :
    Placing source (forStatement rules) := by
  apply Leads.expect (by decide)
  intro start inside
  apply Leads.after
  intro isAwait
  apply Leads.after
  intro bracket
  apply Leads.bind (forInitial_placing needs placing)
  intro initial initialIs
  apply Leads.after
  intro isIn
  apply Leads.after
  intro isOf
  apply Leads.ite
  · exact fun _ => forEach_placing placing inside initialIs
  · exact fun _ => forParts_placing placing inside initialIs

private theorem switchCase_placing (placing : PlacingRules source rules) {switchStart : Token} :
    Placing source (switchCase rules switchStart) := by
  have caseTest : Placing source (caseTest rules) :=
    .after fun _ => .ite (fun _ => absent_placing) fun _ =>
      .after fun _ => placing.expression.allowingIn
  apply Leads.opening switchCase_needs
  intro start inside
  apply Leads.bind caseTest
  intro test testIs
  apply Leads.after
  intro colon
  apply Leads.bind (Leads.repeatWhile placing.statement)
  exact fun body bodyIs => finish_placing inside (.cons testIs bodyIs)

theorem switchStatement_placing (placing : PlacingRules source rules) :
    Placing source (switchStatement rules) := by
  apply Leads.expect (by decide)
  intro start inside
  apply Leads.bind (parenTest_placing placing)
  intro discriminant discriminantIs
  apply Leads.after
  intro brace
  apply Leads.bind (Leads.repeatWhile (switchCase_placing placing))
  exact fun cases casesAre => finish_placing inside (.cons discriminantIs casesAre)

/-! ### Jumps and handlers -/

theorem jumpStatement_placing : PlacingOnce source jumpStatement := by
  have jumpLabel : Placing source jumpLabel :=
    .after fun _ => .ite (fun _ => .after fun _ => .of_pure .leaf) fun _ => absent_placing
  apply Leads.advance_begun
  intro start inside
  apply Leads.bind jumpLabel
  exact fun label labelIs => .after fun _ => finish_placing inside (.single labelIs)

theorem returnStatement_placing (placing : PlacingRules source rules) :
    Placing source (returnStatement rules) := by
  apply Leads.expect (by decide)
  intro start inside
  apply Leads.after
  intro token
  apply Leads.either absent_placing placing.expression.allowingIn
  exact fun value valueIs => .after fun _ => finish_placing inside (.single valueIs)

theorem throwStatement_placing (placing : PlacingRules source rules) :
    Placing source (throwStatement rules) := by
  apply Leads.expect (by decide)
  intro start inside
  apply Leads.after
  intro token
  apply Leads.optionally
  apply Leads.bind placing.expression.allowingIn
  exact fun value valueIs => .after fun _ => finish_placing inside (.single valueIs)

private theorem catchClause_placing (placing : PlacingRules source rules) :
    PlacingOnce source (catchClause rules) := by
  apply Leads.advance_begun
  intro start inside
  apply Leads.after
  intro hasParam
  have ends : ∀ param, param.Placed source.Holds → Placing source (do
      let body ← block rules
      finish .catchClause [param, body] start) := by
    intro param paramIs
    apply Leads.bind (block_placing placing)
    exact fun body bodyIs => finish_placing inside (.cons paramIs (.single bodyIs))
  apply Leads.ite
  · intro _
    apply Leads.bind placing.target
    exact fun param paramIs => .after fun _ => ends param paramIs
  · exact fun _ => ends .absent .absent

theorem tryStatement_placing (placing : PlacingRules source rules) :
    Placing source (tryStatement rules) := by
  apply Leads.expect (by decide)
  intro start inside
  apply Leads.bind (block_placing placing)
  intro body bodyIs
  apply Leads.checkedEither rfl (catchClause_placing placing) absent_placing
  intro handler handlerIs
  apply Leads.after
  intro hasFinally
  apply Leads.either (block_placing placing) absent_placing
  intro finalizer finalizerIs
  have ends : Placing source (finish .tryStmt [body, handler, finalizer] start) :=
    finish_placing inside (.cons bodyIs (.cons handlerIs (.single finalizerIs)))
  apply Leads.ite
  · exact fun _ => .after fun _ => .after fun _ => ends
  · exact fun _ => ends

/-! ### Modules -/

theorem rawStatement_placing {kind : Kind} {start : Token}
    (inside : start.start < source.text.length) : Placing source (rawStatement kind start) :=
  .after fun _ => finish_placing inside (.single .leaf)

theorem importDeclaration_placing : Placing source importDeclaration := by
  apply Leads.expect (by decide)
  intro start inside
  iterate 4
    apply Leads.after
    intro _
  exact rawStatement_placing inside

theorem exportDefault_placing (needs : RulesNeedTokens rules) (placing : PlacingRules source rules)
    {start : Token} (inside : start.start < source.text.length) :
    Placing source (exportDefault rules start) := by
  have ends : ∀ exported, exported.Placed source.Holds →
      Placing source (finish .exportDefault [exported] start) :=
    fun exported exportedIs => finish_placing inside (.single exportedIs)
  apply Leads.after
  intro next
  apply Leads.after
  intro isFunction
  apply Leads.after
  intro isAsync
  apply Leads.after
  intro isClass
  apply Leads.ite
  · exact fun _ => .bind (function_placing needs placing) ends
  intro _
  apply Leads.ite
  · exact fun _ => .bind (classDefinition_placing needs placing) ends
  intro _
  apply Leads.bind placing.assignment.allowingIn
  exact fun value valueIs => .after fun _ => ends value valueIs

theorem exportList_placing {start : Token} (inside : start.start < source.text.length) :
    Placing source (exportList start) := by
  apply Leads.after
  intro braces
  apply Leads.after
  intro isFrom
  apply Leads.optionally
  exact .after fun _ => rawStatement_placing inside

private theorem exportAll_placing {start : Token} (inside : start.start < source.text.length) :
    Placing source (exportAll start) := by
  have module : Placing source (do
      moduleName
      statementEnd
      rawStatement .exportAll start) :=
    .after fun _ => .after fun _ => rawStatement_placing inside
  have ends : Placing source (do
      if !(← checkName "from") then failAt .missingFrom (← current)
      moduleName
      statementEnd
      rawStatement .exportAll start) := by
    apply Leads.after
    intro isFrom
    apply Leads.ite
    · exact fun _ => .after fun _ => .after fun _ => module
    · exact fun _ => module
  apply Leads.after
  intro isNamed
  apply Leads.ite
  · exact fun _ => .after fun _ => .after fun _ => ends
  · exact fun _ => ends

theorem exportStatement_placing (needs : RulesNeedTokens rules)
    (placing : PlacingRules source rules) : Placing source (exportStatement rules) := by
  apply Leads.expect (by decide)
  intro start inside
  apply Leads.after
  intro isDefault
  apply Leads.ite
  · exact fun _ => exportDefault_placing needs placing inside
  intro _
  apply Leads.after
  intro isList
  apply Leads.ite
  · exact fun _ => exportList_placing inside
  intro _
  apply Leads.after
  intro isAll
  apply Leads.ite
  · exact fun _ => exportAll_placing inside
  intro _
  apply Leads.bind placing.statement
  intro exported exportedIs
  apply Leads.optionally
  exact finish_placing inside (.single exportedIs)

/-! ### Statements -/

theorem withStatement_placing (placing : PlacingRules source rules) :
    PlacingOnce source (withStatement rules) := by
  apply Leads.advance_begun
  intro start inside
  apply Leads.after
  intro bracket
  apply Leads.bind placing.expression.allowingIn
  intro object objectIs
  apply Leads.after
  intro closer
  apply Leads.bind placing.statement
  exact fun body bodyIs => finish_placing inside (.cons objectIs (.single bodyIs))

theorem labeledStatement_placing (placing : PlacingRules source rules) :
    PlacingOnce source (labeledStatement rules) := by
  apply Leads.advance_begun
  intro label inside
  apply Leads.after
  intro colon
  apply Leads.bind placing.statement
  exact fun body bodyIs => finish_placing inside (.cons .leaf (.single bodyIs))

theorem statement_placing (needs : RulesNeedTokens rules) (placing : PlacingRules source rules) :
    Placing source (statement rules) := by
  apply Leads.begun (statement_needs needs)
  apply Leads.current_begun
  intro token inside
  split
  · exact .within (block_placing placing)
  · exact .within (.after fun _ => finish_placing inside .nil)
  iterate 3 exact declarationStatement_placing needs placing
  · exact .within (ifStatement_placing placing)
  · exact .within (whileStatement_placing placing)
  · exact .within (doWhileStatement_placing placing)
  · exact .within (forStatement_placing needs placing)
  · exact .within (switchStatement_placing placing)
  iterate 2 exact jumpStatement_placing
  · exact .within (returnStatement_placing placing)
  · exact .within (throwStatement_placing placing)
  · exact .within (tryStatement_placing placing)
  · exact .within (function_placing needs placing)
  · exact .within (classDefinition_placing needs placing)
  · exact .within (.after fun _ => .after fun _ => finish_placing inside .nil)
  · exact withStatement_placing placing
  · apply Leads.within
    apply Leads.after
    intro next
    apply Leads.ite
    · exact fun _ => expressionStatement_placing needs placing
    · exact fun _ => importDeclaration_placing
  · exact .within (exportStatement_placing needs placing)
  · apply Leads.still
    intro isFunction
    apply Leads.ite
    · exact fun _ => .within (function_placing needs placing)
    intro _
    apply Leads.still
    intro next
    apply Leads.ite
    · exact fun _ => labeledStatement_placing placing
    · exact fun _ => .within (expressionStatement_placing needs placing)
  · exact .within (expressionStatement_placing needs placing)

/-- The rules of every level place what they read in the source. -/
theorem rulesAt_placing (source : Source) (levels : Nat) :
    PlacingRules source (rulesAt levels) := by
  induction levels with
  | zero => constructor <;> first | exact .of_throw | exact fun _ => .of_throw
  | succ levels induction =>
      have needs := rulesAt_needTokens levels
      exact ⟨statement_placing needs induction, expression_placing needs induction,
        assignment_placing needs induction, binary_placing needs induction,
        unary_placing needs induction, leftHandSide_placing needs induction,
        construction_placing needs induction, bindingTarget_placing needs induction⟩

end Grammar

/-- A script that is read is the program of statements whose places begin inside of the text. -/
theorem parseScript_statements {source : Source} {levels : Nat} {node : Node}
    (parsed : parseScript source levels = .ok node) :
    ∃ statements, node = Grammar.program source statements ∧ ArePlaced source.Holds statements := by
  unfold parseScript at parsed
  split at parsed
  case h_1 => cases parsed
  case h_2 tokens tokenized =>
    split at parsed
    case h_1 => cases parsed
    case h_2 statements after ran =>
      cases parsed
      have within : Grammar.State.Within source ⟨source, tokens, none, false, tokens.length + 1⟩ :=
        ⟨rfl, tokenize_inside tokenized⟩
      have placing := (Grammar.rulesAt_placing source levels).statement
      exact ⟨statements, rfl, (placing.repeatWhile _ _ _ within ran).1⟩

/-- Every place of a script lies in its source. -/
theorem parseScript_source {source : Source} {levels : Nat} {node : Node}
    (parsed : parseScript source levels = .ok node) :
    node.Placed fun place => place.source = source := by
  obtain ⟨statements, rfl, all⟩ := parseScript_statements parsed
  apply Node.Placed.read
  · exact fun _ => rfl
  · exact fun statement there => (all statement there).mono fun _ holds => holds.1

/-- Every place of a script begins inside of its text, if there is any. -/
theorem parseScript_placed {source : Source} {levels : Nat} {node : Node}
    (some : source.text ≠ []) (parsed : parseScript source levels = .ok node) : node.Placed source.Holds := by
  obtain ⟨statements, rfl, all⟩ := parseScript_statements parsed
  exact .read (fun _ => ⟨rfl, List.length_pos_iff.mpr some⟩) all

end ScriptFold
