import ScriptFold.Grammar.Expression

/-!
# Statements

Import and export lists are kept as raw text; all other statements are read into
trees.
-/

namespace ScriptFold

namespace Grammar

variable (rules : Rules)

def declaration : Reader Node := do
  let start ← advance
  let declarator : Reader Node := do
    let first ← current
    let target ← rules.target
    let initial ← if ← accept .assign then rules.assignment else pure .absent
    finish .declarator [target, initial] first
  let declarators ← commaItems declarator
  finish .varDecl (leafOf .declKind start :: declarators) start

def declarationStatement : Reader Node := do
  let start ← current
  let parts ← declaration rules
  statementEnd
  finish .varDecl parts.children start

def expressionStatement : Reader Node := do
  let start ← current
  let value ← allowingIn true rules.expression
  statementEnd
  finish .exprStmt [value] start

def parenTest : Reader Node := do
  let _ ← expect .openParen
  let test ← allowingIn true rules.expression
  let _ ← expect .closeParen
  return test

/-- An `if` statement. -/
def ifStatement : Reader Node := do
  let start ← expect .kwIf
  let test ← parenTest rules
  let consequent ← rules.statement
  let alternate ← if ← accept .kwElse then rules.statement else pure .absent
  finish .ifStmt [test, consequent, alternate] start

/-- A `while` statement. -/
def whileStatement : Reader Node := do
  let start ← expect .kwWhile
  let test ← parenTest rules
  let body ← rules.statement
  finish .whileStmt [test, body] start

/-- A `do` statement; its semicolon may always be left out. -/
def doWhileStatement : Reader Node := do
  let start ← expect .kwDo
  let body ← rules.statement
  let _ ← expect .kwWhile
  let test ← parenTest rules
  let _ ← accept .semicolon
  finish .doWhileStmt [body, test] start

/-- The first part of the head of a `for`. -/
def forInitial : Reader Node := do
  let token ← current
  let next ← peek 1
  let declares := token.type == .kwVar || token.type == .kwConst
    || (token.type == .kwLet && [.ident, .openBracket, .openBrace].contains next.type)
  if token.type = .semicolon then return .absent
  allowingIn false (if declares then declaration rules else rules.expression)

/-- The rest of a `for` over keys or items, from `in` or `of` on. -/
def forEach (start : Token) (isAwait : Bool) (initial : Node) : Reader Node := do
  let word ← advance
  let left ← if initial.isKind .varDecl then pure initial else asTarget initial
  let isIn := word.type == .kwIn
  let right ← allowingIn true (if isIn then rules.expression else rules.assignment)
  let _ ← expect .closeParen
  let body ← rules.statement
  finishWith { isAwait } (if isIn then .forInStmt else .forOfStmt) [left, right, body] start

/-- The rest of a `for` with three parts, from the first semicolon on. -/
def forParts (start : Token) (initial : Node) : Reader Node := do
  let _ ← expect .semicolon
  let absentOr (closer : TokenType) : Reader Node := do
    if ← check [closer] then return .absent
    rules.expression
  let (test, update) ← allowingIn true do
    let test ← absentOr .semicolon
    let _ ← expect .semicolon
    let update ← absentOr .closeParen
    return (test, update)
  let _ ← expect .closeParen
  let body ← rules.statement
  finish .forStmt [initial, test, update, body] start

/-- A `for` statement. -/
def forStatement : Reader Node := do
  let start ← expect .kwFor
  let isAwait ← accept .kwAwait
  let _ ← expect .openParen
  let initial ← forInitial rules
  if (← check [.kwIn]) || (← checkName "of") then forEach rules start isAwait initial
  else forParts rules start initial

/-- The test of a case, which a default case does not have. -/
def caseTest : Reader Node := do
  if ← accept .kwDefault then
    return .absent
  else
    let _ ← expectOr .kwCase fun _ => .expectedCase
    allowingIn true rules.expression

/-- One case of a `switch`. -/
def switchCase (switchStart : Token) : Reader Node := do
  let start ← current
  let test ← caseTest rules
  let _ ← expect .colon
  let continues : Reader Bool := do
    if ← check [.kwCase, .kwDefault, .closeBrace] then return false
    if ← check [.endOfInput] then failAt .unterminatedSwitch switchStart
    return true
  let body ← repeatWhile continues rules.statement
  finish .switchCase (test :: body) start

/-- A `switch` statement. -/
def switchStatement : Reader Node := do
  let start ← expect .kwSwitch
  let discriminant ← parenTest rules
  let _ ← expect .openBrace
  let continues : Reader Bool := do return !(← accept .closeBrace)
  let cases ← repeatWhile continues (switchCase rules start)
  finish .switchStmt (discriminant :: cases) start

/-- The label of a jump, which stands on the same line. -/
def jumpLabel : Reader Node := do
  let token ← current
  if token.type = .ident ∧ !token.newlineBefore then
    return leafOf .name (← advance)
  else
    return .absent

/-- A `break` or `continue`. -/
def jumpStatement : Reader Node := do
  let start ← advance
  let kind := if start.type = .kwBreak then Kind.breakStmt else .continueStmt
  let label ← jumpLabel
  statementEnd
  finish kind [label] start

/-- A `return` statement. -/
def returnStatement : Reader Node := do
  let start ← expect .kwReturn
  let token ← current
  let bare := [.semicolon, .closeBrace, .endOfInput].contains token.type || token.newlineBefore
  let value ← if bare then pure .absent else allowingIn true rules.expression
  statementEnd
  finish .returnStmt [value] start

/-- A `throw` statement. -/
def throwStatement : Reader Node := do
  let start ← expect .kwThrow
  let token ← current
  if token.newlineBefore then failAt .newlineAfterThrow token
  let value ← allowingIn true rules.expression
  statementEnd
  finish .throwStmt [value] start

/-- A `catch` clause, whose parameter may be left out. -/
def catchClause : Reader Node := do
  let start ← advance
  let param ←
    if ← accept .openParen then
      let target ← rules.target
      let _ ← expect .closeParen
      pure target
    else
      pure .absent
  let body ← block rules
  finish .catchClause [param, body] start

/-- A `try` statement. -/
def tryStatement : Reader Node := do
  let start ← expect .kwTry
  let body ← block rules
  let handler ← if ← check [.kwCatch] then catchClause rules else pure .absent
  let finalizer ← if ← accept .kwFinally then block rules else pure .absent
  if handler.isAbsent && finalizer.isAbsent then failAt .missingCatch (← current)
  finish .tryStmt [body, handler, finalizer] start

/-- The raw text from a token to the token read last. -/
def rawStatement (kind : Kind) (start : Token) : Reader Node := do
  let state ← get
  let last := state.previous.getD start
  let raw : Leaf := ⟨.raw, state.source.text.slice start.start last.stop,
    some ⟨start.start, start.line, start.column, some last.stop, some last.line,
      some last.column⟩⟩
  finish kind [.leaf raw] start

/-- Skip braces and all that stands between them. -/
def skipBraces : Reader Unit := do
  let _ ← expect .openBrace
  loop (← get).budget 1
where
  loop : (budget depth : Nat) → Reader Unit
    | 0, _ => throw .nestingTooDeep
    | _ + 1, 0 => return
    | budget + 1, depth + 1 => do
        let token ← current
        if token.type = .endOfInput then failAt (.expectedCloser .closeBrace) token
        let _ ← advance
        match token.type with
        | .openBrace => loop budget (depth + 2)
        | .closeBrace => loop budget depth
        | _ => loop budget (depth + 1)

def skipAttributes : Reader Unit := do
  let token ← current
  let next ← peek 1
  if (token.type == .kwWith || token.isNamed "assert") && !token.newlineBefore
      && next.type == .openBrace then
    let _ ← advance
    skipBraces

/-- An import declaration, kept as it is written. -/
def importDeclaration : Reader Node := do
  let start ← expect .kwImport
  let continues : Reader Bool := do
    let token ← current
    if token.type = .string then return false
    if token.type = .endOfInput ∨ token.type = .semicolon then failAt .missingModule token
    return true
  let _ ← repeatWhile continues advance
  let _ ← advance
  skipAttributes
  statementEnd
  rawStatement .importDecl start

/-- The module that an export list comes from. -/
def moduleName : Reader Unit := do
  let _ ← advance
  let _ ← expect .string
  skipAttributes

/-- What `export default` exports. -/
def exportDefault (start : Token) : Reader Node := do
  let next ← peek 1
  let isFunction := (← check [.kwFunction])
    || ((← checkName "async") && next.type == .kwFunction)
  let exported ←
    if isFunction then
      function rules .functionDecl false
    else if ← check [.kwClass] then
      classDefinition rules .classDecl false
    else
      let value ← allowingIn true rules.assignment
      statementEnd
      pure value
  finish .exportDefault [exported] start

/-- An export list, kept as it is written. -/
def exportList (start : Token) : Reader Node := do
  skipBraces
  if ← checkName "from" then moduleName
  statementEnd
  rawStatement .exportNamed start

/-- An export of all names of a module, kept as it is written. -/
def exportAll (start : Token) : Reader Node := do
  if ← checkName "as" then
    let _ ← advance
    let _ ← advance
  if !(← checkName "from") then failAt .missingFrom (← current)
  moduleName
  statementEnd
  rawStatement .exportAll start

def exportStatement : Reader Node := do
  let start ← expect .kwExport
  if ← accept .kwDefault then exportDefault rules start
  else if ← check [.openBrace] then exportList start
  else if ← accept .star then exportAll start
  else
    let exported ← rules.statement
    if !exported.isOneOf [.varDecl, .functionDecl, .classDecl] then
      failAt .missingDeclaration start
    finish .exportDecl [exported] start

/-- A `with` statement. -/
def withStatement : Reader Node := do
  let start ← advance
  let _ ← expect .openParen
  let object ← allowingIn true rules.expression
  let _ ← expect .closeParen
  let body ← rules.statement
  finish .withStmt [object, body] start

def labeledStatement : Reader Node := do
  let label ← advance
  let _ ← advance
  let body ← rules.statement
  finish .labeledStmt [leafOf .name label, body] label

def statement : Reader Node := do
  let token ← current
  match token.type with
  | .openBrace => block rules
  | .semicolon =>
      let _ ← advance
      finish .emptyStmt [] token
  | .kwVar | .kwConst | .kwLet => declarationStatement rules
  | .kwIf => ifStatement rules
  | .kwWhile => whileStatement rules
  | .kwDo => doWhileStatement rules
  | .kwFor => forStatement rules
  | .kwSwitch => switchStatement rules
  | .kwBreak | .kwContinue => jumpStatement
  | .kwReturn => returnStatement rules
  | .kwThrow => throwStatement rules
  | .kwTry => tryStatement rules
  | .kwFunction => function rules .functionDecl true
  | .kwClass => classDefinition rules .classDecl true
  | .kwDebugger =>
      let _ ← advance
      statementEnd
      finish .debuggerStmt [] token
  | .kwWith => withStatement rules
  | .kwImport =>
      if [.openParen, .dot].contains (← peek 1).type then expressionStatement rules
      else importDeclaration
  | .kwExport => exportStatement rules
  | .ident =>
      if ← isAsyncFunction then function rules .functionDecl true
      else if (← peek 1).type = .colon then labeledStatement rules
      else expressionStatement rules
  | _ => expressionStatement rules

end Grammar

end ScriptFold
