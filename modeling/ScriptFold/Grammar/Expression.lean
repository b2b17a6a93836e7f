import ScriptFold.Grammar.Callable
import ScriptFold.Grammar.Target

/-!
# Expressions

Binary operators are read by climbing precedences; all other levels have a reader
of their own.
-/

namespace ScriptFold

namespace Grammar

/-- The precedence of a binary operator; higher binds tighter. -/
def binaryPrecedence? : TokenType → Option Nat
  | .nullish => some 1
  | .or => some 2
  | .and => some 3
  | .pipe => some 4
  | .caret => some 5
  | .amp => some 6
  | .equal | .unequal | .strictEqual | .strictUnequal => some 7
  | .less | .greater | .atMost | .atLeast | .kwInstanceof | .kwIn => some 8
  | .lshift | .rshift | .urshift => some 9
  | .plus | .minus => some 10
  | .star | .slash | .mod => some 11
  | .pow => some 12
  | _ => none

/-- Operators that may leave their right operand unevaluated. -/
def isLogical : TokenType → Bool
  | .and | .or | .nullish => true
  | _ => false

/-- Operators in front of one operand. -/
def isUnary : TokenType → Bool
  | .not | .tilde | .plus | .minus | .kwTypeof | .kwVoid | .kwDelete => true
  | _ => false

/-- Tokens that cannot begin the operand of a `yield`. -/
def stopsOperand : TokenType → Bool
  | .closeParen | .closeBracket | .closeBrace | .comma | .semicolon | .colon | .endOfInput => true
  | type => type.isAssignment

/-- The tokens after the parenthesis that closes the first one, if there is one. -/
def afterMatchingParen : (depth : Nat) → List Token → Option (List Token)
  | _, [] => none
  | depth, token :: rest =>
      match token.type with
      | .openParen => afterMatchingParen (depth + 1) rest
      | .closeParen => if depth = 1 then some rest else afterMatchingParen (depth - 1) rest
      | .endOfInput => none
      | _ => afterMatchingParen depth rest

/-- Whether the first token is an arrow on the same line. -/
def startsWithArrow : List Token → Bool
  | token :: _ => token.type == .arrow && !token.newlineBefore
  | [] => false

/-- Whether an arrow function begins here. -/
def isArrowStart : Reader Bool := do
  let tokens := (← get).tokens
  let next ← peek 1
  let isAsync := (← checkName "async") && !next.newlineBefore
    && (next.type == .ident || next.type == .openParen)
  let tokens := if isAsync then tokens.tail else tokens
  return match tokens with
    | token :: rest =>
        match token.type with
        | .ident => startsWithArrow rest
        | .openParen => (afterMatchingParen 0 (token :: rest)).any startsWithArrow
        | _ => false
    | [] => false

variable (rules : Rules)

def spreadable : Reader Node := do
  let start ← current
  if ← accept .ellipsis then
    let value ← rules.assignment
    finish .spread [value] start
  else
    rules.assignment

def arguments : Reader Node := do
  let start ← expect .openParen
  let items ← allowingIn true (commaList .closeParen (spreadable rules))
  let _ ← expect .closeParen
  finish .args items start

/-- The substitutions and further pieces of a template whose head is read. -/
def templateParts : (budget : Nat) → Reader (List Node)
  | 0 => throw .nestingTooDeep
  | budget + 1 => do
      let value ← allowingIn true rules.expression
      if ← check [.templateMiddle] then
        let piece := leafOf .templateChunk (← advance)
        return value :: piece :: (← templateParts budget)
      let tail ← expectOr .templateTail fun _ => .unterminatedSubstitution
      return [value, leafOf .templateChunk tail]

def template : Reader Node := do
  let start ← current
  if ← check [.wholeTemplate] then
    let piece ← advance
    finish .template [leafOf .templateChunk piece] start
  else
    let head ← expect .templateHead
    let parts ← templateParts rules (← get).budget
    finish .template (leafOf .templateChunk head :: parts) start

/-- A property name after a dot. -/
def propertyName (optional : Bool) : Reader Token := do
  let name ← current
  if name.type.isName || name.type == .privateName then advance
  else failAt (.missingPropertyName optional) name

/-- An expression in brackets, whose opening bracket is read. -/
def bracketed : Reader Node := do
  let index ← allowingIn true rules.expression
  let _ ← expect .closeBracket
  return index

/-- One more link of a chain of members, subscripts, calls and templates, if there is one. -/
def chainLink? (allowCall : Bool) (start : Token) (object : Node) : Reader (Option Node) := do
  let token ← current
  match token.type with
  | .dot =>
      let _ ← advance
      let name ← propertyName false
      let type := if name.type = .privateName then LeafType.privateName else .name
      return some (← finish .member [object, leafOf type name] start)
  | .optionalDot =>
      let _ ← advance
      let optional : Flags := { optional := true }
      if ← check [.openParen] then
        let args ← arguments rules
        return some (← finishWith optional .call [object, args] start)
      else if ← accept .openBracket then
        let index ← bracketed rules
        return some (← finishWith optional .subscript [object, index] start)
      else
        let name ← propertyName true
        return some (← finishWith optional .member [object, leafOf .name name] start)
  | .openBracket =>
      let _ ← advance
      let index ← bracketed rules
      return some (← finish .subscript [object, index] start)
  | .openParen =>
      if allowCall then
        let args ← arguments rules
        return some (← finish .call [object, args] start)
      else
        return none
  | .wholeTemplate | .templateHead =>
      let quasi ← template rules
      return some (← finish .taggedTemplate [object, quasi] start)
  | _ => return none

/-- All further links of a chain. -/
def chainFrom (allowCall : Bool) (start : Token) : (budget : Nat) → Node → Reader Node
  | 0, _ => throw .nestingTooDeep
  | budget + 1, object => do
      match ← chainLink? rules allowCall start object with
      | some longer => chainFrom allowCall start budget longer
      | none => return object

def chain (allowCall : Bool) (start : Token) (object : Node) : Reader Node := do
  chainFrom rules allowCall start (← get).budget object

/-- A `new.target` or `import.meta`, whose dot is read. -/
def metaProperty (start : Token) (word : String) : Reader Node := do
  let property ← expect .ident
  let raw : Leaf := ⟨.raw, Text.ofString word ++ property.text,
    some ⟨start.start, start.line, start.column, none, none, none⟩⟩
  finish .metaProperty [.leaf raw] start

def arrayLiteral : Reader Node := do
  let start ← expect .openBracket
  let elements ← allowingIn true (holedList .closeBracket (spreadable rules))
  let _ ← expect .closeBracket
  finish .array elements start

def objectMember : Reader Node := do
  let start ← current
  if ← accept .ellipsis then
    let value ← rules.assignment
    finish .spread [value] start
  else
    let mods ← modifiers
    let key ← propertyKey rules
    if (← check [.openParen]) || mods.methodKind != "method" || mods.isAsync
        || mods.isGenerator then
      methodAfter rules start key mods false
    else if ← accept .colon then
      let value ← rules.assignment
      finish .property [key, value] start
    else
      match key with
      | .leaf ⟨.name, _, _⟩ =>
          let ident ← finish .ident [key] start
          finish .shorthandProperty [ident] start
      | _ => failAt .missingColonAfterKey (← current)

def objectLiteral : Reader Node := do
  let start ← expect .openBrace
  let members ← allowingIn true (commaList .closeBrace (objectMember rules))
  let _ ← expect .closeBrace
  finish .object members start

/-- A dynamic import or `import.meta`. -/
def importExpression : Reader Node := do
  let token ← advance
  if ← accept .dot then
    metaProperty token "import."
  else
    let _ ← expect .openParen
    let argument ← allowingIn true rules.assignment
    let _ ← expect .closeParen
    finish .importCall [argument] token

def parenthesized : Reader Node := do
  let token ← advance
  let expression ← allowingIn true rules.expression
  let _ ← expect .closeParen
  finish .paren [expression] token

/-- Whether `async` before a function begins here. -/
def isAsyncFunction : Reader Bool := do
  let next ← peek 1
  return (← checkName "async") && next.type == .kwFunction && !next.newlineBefore

def primary : Reader Node := do
  let token ← current
  match token.type with
  | .number | .bigint | .string | .kwTrue | .kwFalse | .kwNull =>
      let _ ← advance
      finish .literal [leafOf (literalLeaf token.type) token] token
  | .regex =>
      let _ ← advance
      finish .regex [leafOf .regex token] token
  | .wholeTemplate | .templateHead => template rules
  | .kwThis =>
      let _ ← advance
      finish .thisExpr [] token
  | .kwSuper =>
      let _ ← advance
      finish .superExpr [] token
  | .kwFunction => function rules .functionExpr false
  | .kwClass => classDefinition rules .classExpr false
  | .openParen => parenthesized rules
  | .openBracket => arrayLiteral rules
  | .openBrace => objectLiteral rules
  | .kwImport => importExpression rules
  | .ident =>
      if ← isAsyncFunction then
        function rules .functionExpr false
      else
        let _ ← advance
        finish .ident [leafOf .name token] token
  | .kwLet | .kwYield | .kwAwait =>
      let _ ← advance
      finish .ident [leafOf .name token] token
  | .endOfInput => failAt .unexpectedEnd token
  | _ => failAt (.unexpectedToken token) token

/-- What `new` is applied to, or the head of a chain. -/
def chainHead : Reader Node := do
  if ← check [.kwNew] then rules.construction else primary rules

/-- A construction with `new`, whose arguments may be left out. -/
def construction : Reader Node := do
  let start ← expect .kwNew
  if ← accept .dot then
    metaProperty start "new."
  else
    let calleeStart ← current
    let callee ← chain rules false calleeStart (← chainHead rules)
    let args ← if ← check [.openParen] then arguments rules else pure .absent
    finish .newExpr [callee, args] start

/-- A chain of constructions, calls and members. -/
def leftHandSide : Reader Node := do
  let start ← current
  chain rules true start (← chainHead rules)

/-- An operator in front of one operand. -/
def prefixed (kind : Kind) (withOp : Bool) : Reader Node := do
  let token ← advance
  let operand ← rules.unary
  finish kind (if withOp then [leafOf .op token, operand] else [operand]) token

def unary : Reader Node := do
  let token ← current
  if isUnary token.type then prefixed rules .unary true
  else if token.type = .increment ∨ token.type = .decrement then
    prefixed rules .prefixUpdate true
  else if token.type = .kwAwait then prefixed rules .awaitExpr false
  else
    let operand ← rules.leftHandSide
    if (← check [.increment, .decrement]) && !(← current).newlineBefore then
      let op ← advance
      finish .postfixUpdate [operand, leafOf .op op] token
    else
      return operand

/-- The binary operator at the current token, if it binds at least as tight as `least`. -/
def operator? (least : Nat) : Reader (Option (Token × Nat)) := do
  let op ← current
  let noIn := (← get).noIn
  return match binaryPrecedence? op.type with
    | some precedence =>
        if precedence < least || (op.type == .kwIn && noIn) then none else some (op, precedence)
    | none => none

/-- Extend a left operand by all operators that bind at least as tight as `least`.
Only the power operator groups to the right. -/
def climb (least : Nat) (start : Token) : (budget : Nat) → Node → Reader Node
  | 0, _ => throw .nestingTooDeep
  | budget + 1, left => do
      match ← operator? least with
      | none => return left
      | some (op, precedence) =>
          let _ ← advance
          let right ← rules.binary (if op.type = .pow then precedence else precedence + 1)
          let kind := if isLogical op.type then Kind.logical else .binary
          let joined ← finish kind [left, leafOf .op op, right] start
          climb least start budget joined

/-- An expression of binary operators that bind at least as tight as `least`. -/
def binary (least : Nat) : Reader Node := do
  let start ← current
  let left ← rules.unary
  climb rules least start (← get).budget left

/-- A conditional expression, or anything that binds tighter. -/
def conditional : Reader Node := do
  let start ← current
  let test ← rules.binary 1
  if ← accept .question then
    let consequent ← allowingIn true rules.assignment
    let _ ← expect .colon
    let alternate ← rules.assignment
    finish .conditional [test, consequent, alternate] start
  else
    return test

/-- A `yield`, whose operand may be left out. -/
def yieldExpression : Reader Node := do
  let start ← expect .kwYield
  let delegate ← accept .star
  let token ← current
  let value ←
    if stopsOperand token.type || token.newlineBefore then pure .absent else rules.assignment
  finishWith { delegate } .yieldExpr [value] start

/-- The parameters of an arrow function; a single name needs no parentheses. -/
def arrowParameters : Reader Node := do
  if ← check [.ident] then
    let token ← advance
    finish .params [← bindingOf token] token
  else
    parameters rules

def arrowFunction : Reader Node := do
  let start ← current
  let next ← peek 1
  let isAsync := (← checkName "async") && next.type != .arrow
  if isAsync then
    let _ ← advance
  let params ← arrowParameters rules
  let _ ← expect .arrow
  let body ← if ← check [.openBrace] then functionBody rules else rules.assignment
  finishWith { isAsync } .arrow [params, body] start

/-- An assignment expression: a yield, an arrow function, an assignment or a conditional. -/
def assignment : Reader Node := do
  let start ← current
  if start.type = .kwYield then yieldExpression rules
  else if ← isArrowStart then arrowFunction rules
  else
    let left ← conditional rules
    let op ← current
    if op.type.isAssignment then
      let _ ← advance
      let target ← if op.type = .assign then asTarget left else pure left
      let value ← rules.assignment
      finish .assign [target, leafOf .assignOp op, value] start
    else
      return left

/-- A sequence of assignment expressions, or a single one. -/
def expression : Reader Node := do
  let start ← current
  let items ← commaItems rules.assignment
  match items with
  | [single] => return single
  | _ => finish .sequence items start

end Grammar

end ScriptFold
