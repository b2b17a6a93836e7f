import ScriptFold.Grammar.Script
import ScriptFold.Proofs.Reading.Leads

/-!
# Readers at the end of input

Whatever is read takes at least one token.  The readers of this grammar that look at the
current token before they read anything therefore fail at the end of input, whatever the
levels are to which constructs may nest.
-/

namespace ScriptFold

namespace Grammar

/-- No token is left. -/
def Exhausted (state : State) : Prop :=
  (state.tokens.headD noToken).type = .endOfInput

/-- A reader that gives nothing when no token is left. -/
def NeedsToken {α : Type} (reader : Reader α) : Prop :=
  Leads Exhausted reader (fun _ => False) Exhausted

variable {α β : Type}

theorem current_exhausted : Leads Exhausted current (·.type = .endOfInput) Exhausted := by
  intro state token left exhausted ran
  cases ran
  exact ⟨exhausted, exhausted⟩

/-- What is not there is not found. -/
theorem check_exhausted {types : List TokenType} (without : types.contains .endOfInput = false) :
    Leads Exhausted (check types) (· = false) Exhausted := by
  apply Leads.bind current_exhausted
  intro token isEnd
  apply Leads.of_pure
  rw [isEnd]
  exact without

theorem not_isNamed {token : Token} (isEnd : token.type = .endOfInput) (name : String) :
    token.isNamed name = false := by
  rw [Token.isNamed, isEnd]
  rfl

theorem checkName_exhausted {name : String} :
    Leads Exhausted (checkName name) (· = false) Exhausted :=
  .bind current_exhausted fun _ isEnd => .of_pure (not_isNamed isEnd name)

theorem accept_exhausted {type : TokenType} (named : type ≠ .endOfInput) :
    Leads Exhausted (accept type) (· = false) Exhausted := by
  apply Leads.bind current_exhausted
  intro token isEnd
  have notType : ¬token.type = type := fun isType => named (isType.symm.trans isEnd)
  rw [if_neg notType]
  exact .of_pure rfl

/-- Modifiers are only words before a key. -/
theorem modifiers_exhausted : Leads Exhausted modifiers (fun _ => True) Exhausted := by
  apply Leads.bind current_exhausted
  intro token isEnd
  apply Leads.still
  intro next
  simp only [not_isNamed isEnd, Bool.false_and, Bool.false_or, Bool.false_eq_true, if_false]
  exact .bind (accept_exhausted (by decide)) fun _ _ => .of_pure trivial

namespace NeedsToken

theorem bind {first : Reader β} {next : β → Reader α} (needs : NeedsToken first) :
    NeedsToken (first >>= next) :=
  Leads.bind needs fun _ => False.elim

theorem of_throw {failure : ParseFailure} : NeedsToken (throw failure : Reader α) :=
  Leads.of_throw

theorem of_failAt {cause : ParseError} {token : Token} :
    NeedsToken (failAt cause token : Reader α) :=
  Leads.of_throw

theorem still {first : Reader β} {next : β → Reader α} [Still first]
    (needs : ∀ value, NeedsToken (next value)) : NeedsToken (first >>= next) :=
  Leads.still needs

theorem current {next : Token → Reader α}
    (needs : ∀ token, token.type = .endOfInput → NeedsToken (next token)) :
    NeedsToken (current >>= next) :=
  Leads.bind current_exhausted needs

/-- A question about the current token to which the answer is no. -/
theorem refused {question : Reader Bool} {next : Bool → Reader α}
    (refused : Leads Exhausted question (· = false) Exhausted) (needs : NeedsToken (next false)) :
    NeedsToken (question >>= next) := by
  apply Leads.bind refused
  intro value isFalse
  rw [isFalse]
  exact needs

theorem expectOr {type : TokenType} {cause : Token → ParseError} (named : type ≠ .endOfInput) :
    NeedsToken (expectOr type cause) := by
  apply current
  intro token isEnd
  have notType : ¬token.type = type := fun isType => named (isType.symm.trans isEnd)
  rw [if_neg notType]
  exact .of_failAt

theorem expect {type : TokenType} (named : type ≠ .endOfInput) : NeedsToken (expect type) :=
  expectOr named

theorem allowingIn {allowed : Bool} {reader : Reader α} (needs : NeedsToken reader) :
    NeedsToken (allowingIn allowed reader) := by
  apply still
  intro saved
  have modified : Leads Exhausted (modify fun state : State => { state with noIn := !allowed })
      (fun _ => True) Exhausted := by
    intro state value left exhausted ran
    cases ran
    exact ⟨trivial, exhausted⟩
  exact Leads.bind modified fun _ _ => bind needs

theorem commaItems {item : Reader α} (needs : NeedsToken item) : NeedsToken (commaItems item) := by
  apply still
  intro state
  cases state.budget with
  | zero => exact .of_throw
  | succ budget => exact bind needs

end NeedsToken

/-- Rules that give nothing when no token is left. -/
structure RulesNeedTokens (rules : Rules) : Prop where
  statement : NeedsToken rules.statement
  expression : NeedsToken rules.expression
  assignment : NeedsToken rules.assignment
  binary : ∀ least, NeedsToken (rules.binary least)
  unary : NeedsToken rules.unary
  leftHandSide : NeedsToken rules.leftHandSide
  construction : NeedsToken rules.construction
  target : NeedsToken rules.target

variable {rules : Rules}

/-! ### Keys and targets -/

theorem propertyKey_needs : NeedsToken (propertyKey rules) := by
  apply NeedsToken.current
  intro token isEnd
  simp only [isEnd]
  exact .of_failAt

theorem bindingTarget_needs : NeedsToken (bindingTarget rules) := by
  apply NeedsToken.current
  intro token isEnd
  simp only [isEnd]
  exact .of_failAt

theorem parameter_needs (needs : RulesNeedTokens rules) : NeedsToken (parameter rules) := by
  apply NeedsToken.still
  intro start
  apply NeedsToken.refused (accept_exhausted (by decide))
  exact .bind needs.target

theorem patternProperty_needs : NeedsToken (patternProperty rules) :=
  NeedsToken.still fun _ => .bind propertyKey_needs

theorem patternItem_needs : NeedsToken (do
    let first ← current
    if ← accept .ellipsis then restElement rules first else patternProperty rules) :=
  NeedsToken.still fun _ => .refused (accept_exhausted (by decide)) patternProperty_needs

/-! ### Callables -/

theorem function_needs {kind : Kind} {nameRequired : Bool} :
    NeedsToken (function rules kind nameRequired) := by
  apply NeedsToken.still
  intro start
  apply NeedsToken.refused checkName_exhausted
  exact .bind (.expect (by decide))

private theorem keyedMember_needs {start : Token} {isStatic : Bool} :
    NeedsToken (keyedMember rules start isStatic) :=
  Leads.bind modifiers_exhausted fun _ _ => NeedsToken.bind propertyKey_needs

theorem classMember_needs : NeedsToken (classMember rules) := by
  apply NeedsToken.current
  intro start isEnd
  apply NeedsToken.still
  intro next
  rw [not_isNamed isEnd]
  exact keyedMember_needs

/-! ### Expressions -/

theorem spreadable_needs (needs : RulesNeedTokens rules) : NeedsToken (spreadable rules) :=
  NeedsToken.still fun _ => .refused (accept_exhausted (by decide)) needs.assignment

theorem template_needs : NeedsToken (template rules) :=
  NeedsToken.still fun _ => .refused (check_exhausted rfl) (.bind (.expect (by decide)))

theorem objectMember_needs : NeedsToken (objectMember rules) := by
  apply NeedsToken.still
  intro start
  apply NeedsToken.refused (accept_exhausted (by decide))
  exact Leads.bind modifiers_exhausted fun _ _ => NeedsToken.bind propertyKey_needs

theorem primary_needs : NeedsToken (primary rules) := by
  apply NeedsToken.current
  intro token isEnd
  simp only [isEnd]
  exact .of_failAt

theorem chainHead_needs : NeedsToken (chainHead rules) :=
  .refused (check_exhausted rfl) primary_needs

theorem construction_needs : NeedsToken (construction rules) :=
  .bind (.expect (by decide))

theorem leftHandSide_needs : NeedsToken (leftHandSide rules) :=
  NeedsToken.still fun _ => .bind chainHead_needs

theorem unary_needs (needs : RulesNeedTokens rules) : NeedsToken (unary rules) := by
  apply NeedsToken.current
  intro token isEnd
  simp only [isEnd]
  exact .bind needs.leftHandSide

theorem binary_needs (needs : RulesNeedTokens rules) (least : Nat) :
    NeedsToken (binary rules least) :=
  NeedsToken.still fun _ => .bind needs.unary

theorem conditional_needs (needs : RulesNeedTokens rules) : NeedsToken (conditional rules) :=
  NeedsToken.still fun _ => .bind (needs.binary 1)

private theorem arrowParameters_needs : NeedsToken (arrowParameters rules) :=
  .refused (check_exhausted rfl) (.bind (.expect (by decide)))

theorem arrowFunction_needs : NeedsToken (arrowFunction rules) := by
  apply NeedsToken.still
  intro start
  apply NeedsToken.still
  intro next
  apply NeedsToken.refused checkName_exhausted
  exact .bind arrowParameters_needs

theorem assignment_needs (needs : RulesNeedTokens rules) : NeedsToken (assignment rules) := by
  apply NeedsToken.current
  intro start isEnd
  simp only [isEnd]
  apply NeedsToken.still
  intro isArrow
  apply Leads.ite
  · exact fun _ => arrowFunction_needs
  · exact fun _ => NeedsToken.bind (conditional_needs needs)

theorem expression_needs (needs : RulesNeedTokens rules) : NeedsToken (expression rules) :=
  NeedsToken.still fun _ => .bind (.commaItems needs.assignment)

/-! ### Statements -/

theorem declarator_needs (needs : RulesNeedTokens rules) : NeedsToken (do
    let first ← current
    let target ← rules.target
    let initial ← if ← accept .assign then rules.assignment else pure .absent
    finish .declarator [target, initial] first) :=
  NeedsToken.still fun _ => .bind needs.target

private theorem caseTest_needs : NeedsToken (caseTest rules) :=
  .refused (accept_exhausted (by decide)) (.bind (.expectOr (by decide)))

theorem switchCase_needs {start : Token} : NeedsToken (switchCase rules start) :=
  NeedsToken.still fun _ => .bind caseTest_needs

theorem expressionStatement_needs (needs : RulesNeedTokens rules) :
    NeedsToken (expressionStatement rules) :=
  NeedsToken.still fun _ => .bind (.allowingIn needs.expression)

theorem statement_needs (needs : RulesNeedTokens rules) : NeedsToken (statement rules) := by
  apply NeedsToken.current
  intro token isEnd
  simp only [isEnd]
  exact expressionStatement_needs needs

/-- The rules of every level give nothing when no token is left. -/
theorem rulesAt_needTokens (levels : Nat) : RulesNeedTokens (rulesAt levels) := by
  induction levels with
  | zero => constructor <;> first | exact .of_throw | exact fun _ => .of_throw
  | succ levels induction =>
      exact ⟨statement_needs induction, expression_needs induction, assignment_needs induction,
        binary_needs induction, unary_needs induction, leftHandSide_needs, construction_needs,
        bindingTarget_needs⟩

end Grammar

end ScriptFold
