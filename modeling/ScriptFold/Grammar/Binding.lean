import ScriptFold.Grammar.Reading

/-!
# Names, keys and patterns

The grammar of property keys and of binding patterns.
-/

namespace ScriptFold

namespace Grammar

variable (rules : Rules)

/-- The binding of a name that was just read. -/
def bindingOf (token : Token) : Reader Node :=
  finish .binding [leafOf .name token] token

/-- The leaf type of a literal token. -/
def literalLeaf : TokenType → LeafType
  | .number => .number
  | .bigint => .bigint
  | .string => .string
  | .kwTrue => .trueWord
  | .kwFalse => .falseWord
  | .kwNull => .nullWord
  | _ => .regex

/-- Whether a token can begin a property key or a generator mark. -/
def isKeyStart (token : Token) : Bool :=
  token.type.isName
    || [.string, .number, .bigint, .openBracket, .privateName, .star].contains token.type

/-- A property key: a name, a private name, a literal or an expression in brackets. -/
def propertyKey : Reader Node := do
  let token ← current
  if token.type.isName then
    let _ ← advance
    return leafOf .name token
  match token.type with
  | .privateName =>
      let _ ← advance
      return leafOf .privateName token
  | .string | .number | .bigint =>
      let _ ← advance
      finish .literal [leafOf (literalLeaf token.type) token] token
  | .openBracket =>
      let _ ← advance
      let expression ← allowingIn true rules.assignment
      let _ ← expect .closeBracket
      finish .computedKey [expression] token
  | _ => failAt (.unexpectedInKey token) token

/-- A rest element: dots and a target. -/
def restElement (start : Token) : Reader Node := do
  let target ← rules.target
  finish .rest [target] start

/-- A parameter or element: a target with an optional default, or a rest element. -/
def parameter : Reader Node := do
  let start ← current
  if ← accept .ellipsis then
    restElement rules start
  else
    let target ← rules.target
    if ← accept .assign then
      let default ← rules.assignment
      finish .assignPattern [target, default] start
    else
      return target

def arrayPattern : Reader Node := do
  let start ← expect .openBracket
  let elements ← allowingIn true (holedList .closeBracket (parameter rules))
  let _ ← expect .closeBracket
  finish .arrayPattern elements start

/-- A property of an object pattern; without a colon the key is also the target. -/
def patternProperty : Reader Node := do
  let start ← current
  let key ← propertyKey rules
  if ← accept .colon then
    let target ← parameter rules
    finish .patternProperty [key, target] start
  else if key.isTree then
    failAt .missingColonInPattern (← current)
  else
    let name ← finish .binding [key] start
    let target ←
      if ← accept .assign then
        let default ← rules.assignment
        finish .assignPattern [name, default] start
      else
        pure name
    finishWith { shorthand := true } .patternProperty [key, target] start

def objectPattern : Reader Node := do
  let start ← expect .openBrace
  let item : Reader Node := do
    let first ← current
    if ← accept .ellipsis then restElement rules first else patternProperty rules
  let properties ← allowingIn true (commaList .closeBrace item)
  let _ ← expect .closeBrace
  finish .objectPattern properties start

/-- A binding target: a name or a pattern. -/
def bindingTarget : Reader Node := do
  let token ← current
  match token.type with
  | .openBracket => arrayPattern rules
  | .openBrace => objectPattern rules
  | .ident | .kwYield | .kwAwait | .kwLet =>
      let _ ← advance
      bindingOf token
  | _ => failAt (.unexpectedInBinding token) token

def parameters : Reader Node := do
  let start ← expect .openParen
  let items ← allowingIn true (commaList .closeParen (parameter rules))
  let _ ← expect .closeParen
  finish .params items start

end Grammar

end ScriptFold
