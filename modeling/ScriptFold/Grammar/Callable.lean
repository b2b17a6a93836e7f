import ScriptFold.Grammar.Binding

/-!
# Functions, methods and classes

The grammar of everything that has parameters and a body.
-/

namespace ScriptFold

namespace Grammar

variable (rules : Rules)

def block : Reader Node := do
  let start ← expect .openBrace
  let continues : Reader Bool := do
    let token ← current
    if token.type = .closeBrace then return false
    if token.type = .endOfInput then failAt .unterminatedBlock start
    return true
  let statements ← repeatWhile continues rules.statement
  let _ ← advance
  finish .block statements start

def functionBody : Reader Node :=
  allowingIn true (block rules)

/-- The name of a function or class, a token of one of these types.  A name that is not
required may be left out. -/
def definedName (types : List TokenType) (required : Bool) (missing : ParseError) :
    Reader Node := do
  if ← check types then
    bindingOf (← advance)
  else if required then
    failAt missing (← current)
  else
    return .absent

/-- A function, possibly async and possibly a generator. -/
def function (kind : Kind) (nameRequired : Bool) : Reader Node := do
  let start ← current
  let isAsync ← checkName "async"
  if isAsync then
    let _ ← advance
  let _ ← expect .kwFunction
  let isGenerator ← accept .star
  let name ← definedName [.ident, .kwYield, .kwAwait] nameRequired .missingFunctionName
  let params ← parameters rules
  let body ← functionBody rules
  finishWith { isAsync, isGenerator } kind [name, params, body] start

/-- What stands before the key of a method. -/
structure Modifiers where
  methodKind : String
  isAsync : Bool
  isGenerator : Bool

/-- The modifiers of a method.  `async`, `get` and `set` are names unless a key follows. -/
def modifiers : Reader Modifiers := do
  let token ← current
  let next ← peek 1
  let isAsync := token.isNamed "async" && isKeyStart next && !next.newlineBefore
  let isAccessor := (token.isNamed "get" || token.isNamed "set") && isKeyStart next
  if isAsync || isAccessor then
    let _ ← advance
  let isGenerator ← accept .star
  return ⟨if isAccessor then token.text.toString else "method", isAsync, isGenerator⟩

/-- The parameters and body of a method whose key is read. -/
def methodAfter (start : Token) (key : Node) (mods : Modifiers) (isStatic : Bool) :
    Reader Node := do
  let params ← parameters rules
  let body ← functionBody rules
  let flags : Flags := {
    methodKind := some mods.methodKind
    isStatic
    isAsync := mods.isAsync
    isGenerator := mods.isGenerator }
  finishWith flags .method [key, params, body] start

/-- A field of a class whose key is read. -/
def fieldAfter (start : Token) (key : Node) (isStatic : Bool) : Reader Node := do
  let value ← if ← accept .assign then rules.assignment else pure .absent
  statementEnd
  finishWith { isStatic } .classField [key, value] start

/-- A method or field of a class. -/
def keyedMember (start : Token) (isStatic : Bool) : Reader Node := do
  let mods ← modifiers
  let key ← propertyKey rules
  if ← check [.openParen] then methodAfter rules start key mods isStatic
  else fieldAfter rules start key isStatic

def classMember : Reader Node := do
  let start ← current
  let next ← peek 1
  if start.isNamed "static"
      && !([TokenType.openParen, .assign, .semicolon, .closeBrace].contains next.type) then
    let _ ← advance
    if ← check [.openBrace] then
      let body ← functionBody rules
      finish .staticBlock [body] start
    else
      keyedMember rules start true
  else
    keyedMember rules start false

/-- The members of a class in braces; stray semicolons between them are dropped. -/
def classBody : Reader Node := do
  let start ← expect .openBrace
  let continues : Reader Bool := do
    if ← accept .closeBrace then return false
    if ← check [.endOfInput] then failAt .unterminatedClassBody start
    return true
  let item : Reader (Option Node) := do
    if ← accept .semicolon then return none
    return some (← classMember rules)
  let members ← allowingIn true (repeatWhile continues item)
  finish .classBody (members.filterMap id) start

def classDefinition (kind : Kind) (nameRequired : Bool) : Reader Node := do
  let start ← expect .kwClass
  let name ← definedName [.ident] nameRequired .missingClassName
  let superclass ← if ← accept .kwExtends then rules.leftHandSide else pure .absent
  let body ← classBody rules
  finish kind [name, superclass, body] start

end Grammar

end ScriptFold
