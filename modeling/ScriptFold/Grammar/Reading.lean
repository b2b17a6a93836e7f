import ScriptFold.Text.Quoted
import ScriptFold.Token.Basic
import ScriptFold.Tree.Basic

/-!
# Reading trees from tokens

The state of a reader is the tokens that are left, of which the first is the
current one, and the token read last.  Every tree spans from a start token to the
token read last.
-/

namespace ScriptFold

/-- Why tokens do not form a script. -/
inductive ParseError where
  | expected (type : TokenType) (found : Token)
  | expectedCase
  | expectedCloser (type : TokenType)
  | unexpectedToken (found : Token)
  | unexpectedInBinding (found : Token)
  | unexpectedInKey (found : Token)
  | unexpectedEnd
  | unterminatedBlock
  | unterminatedSwitch
  | unterminatedClassBody
  | unterminatedSubstitution
  | newlineAfterThrow
  | missingCatch
  | missingModule
  | missingFrom
  | missingDeclaration
  | missingFunctionName
  | missingClassName
  | missingColonAfterKey
  | missingColonInPattern
  | missingPropertyName (optional : Bool)
  | invalidDestructuring
  deriving DecidableEq

namespace ParseError

/-- The text of a token in a message; the end of input has none. -/
def shown (token : Token) : String :=
  if token.type = .endOfInput then "None" else token.text.quoted

/-- The wording of a parse error, without its position. -/
def message : ParseError → String
  | .expected type found =>
      let got := if found.type = .endOfInput then "'end of input'" else found.text.quoted
      "Expected " ++ type.name ++ ", got " ++ got
  | .expectedCase => "Expected 'case' or 'default'"
  | .expectedCloser type => "Expected " ++ type.name
  | .unexpectedToken found => "Unexpected token " ++ shown found
  | .unexpectedInBinding found => "Unexpected token " ++ shown found ++ " in binding"
  | .unexpectedInKey found => "Unexpected token " ++ shown found ++ " in property key"
  | .unexpectedEnd => "Unexpected end of input"
  | .unterminatedBlock => "Unterminated block"
  | .unterminatedSwitch => "Unterminated switch"
  | .unterminatedClassBody => "Unterminated class body"
  | .unterminatedSubstitution => "Unterminated template substitution"
  | .newlineAfterThrow => "Illegal newline after throw"
  | .missingCatch => "Missing catch or finally after try"
  | .missingModule => "Expected module specifier"
  | .missingFrom => "Expected 'from'"
  | .missingDeclaration => "Expected declaration after export"
  | .missingFunctionName => "Expected function name"
  | .missingClassName => "Expected class name"
  | .missingColonAfterKey => "Expected ':' after property key"
  | .missingColonInPattern => "Expected ':' in object pattern"
  | .missingPropertyName optional =>
      "Expected property name after '" ++ (if optional then "?." else ".") ++ "'"
  | .invalidDestructuring => "Invalid destructuring target"

end ParseError

/-- How reading can fail: at a token, or because constructs nest too deep. -/
inductive ParseFailure where
  | at (cause : ParseError) (line column : Nat)
  | nestingTooDeep
  deriving DecidableEq

namespace Grammar

structure State where
  source : Source
  /-- The tokens left; the last one marks the end of input. -/
  tokens : List Token
  /-- The token read last. -/
  previous : Option Token
  /-- Whether `in` does not count as an operator, as in the head of a `for`. -/
  noIn : Bool
  /-- A number greater than that of the tokens left, which bounds every repetition. -/
  budget : Nat

/-- A reader of some part of a script. -/
abbrev Reader := StateT State (Except ParseFailure)

/-- The end of an empty list of tokens. -/
def noToken : Token := ⟨.endOfInput, [], ⟨0, 0, 0⟩, 0, false⟩

/-- The token `offset` tokens ahead; beyond the end, the last one. -/
def peek (offset : Nat) : Reader Token := do
  let tokens := (← get).tokens
  return match tokens[offset]? with
    | some token => token
    | none => tokens.getLastD noToken

def current : Reader Token := do
  return (← get).tokens.headD noToken

/-- Read the current token; the end of input is never passed. -/
def advance : Reader Token := do
  let state ← get
  let token := state.tokens.headD noToken
  let tokens :=
    match state.tokens with
    | _ :: next :: rest => next :: rest
    | tokens => tokens
  set { state with tokens, previous := some token }
  return token

def failAt {α : Type} (cause : ParseError) (token : Token) : Reader α :=
  throw (.at cause token.line token.column)

/-- Whether the current token has one of these types. -/
def check (types : List TokenType) : Reader Bool := do
  return types.contains (← current).type

/-- Whether the current token has this type; if so it is read. -/
def accept (type : TokenType) : Reader Bool := do
  if (← current).type = type then
    let _ ← advance
    return true
  return false

/-- Read a token of this type, or fail with a cause. -/
def expectOr (type : TokenType) (cause : Token → ParseError) : Reader Token := do
  let token ← current
  if token.type = type then advance else failAt (cause token) token

/-- Read a token of this type. -/
def expect (type : TokenType) : Reader Token :=
  expectOr type (.expected type)

/-- Whether the current token is the name `name`. -/
def checkName (name : String) : Reader Bool := do
  return (← current).isNamed name

/-- Read the end of a statement.  It may be left out before a closing brace, at the
end of input and after a line end. -/
def statementEnd : Reader Unit := do
  if ← accept .semicolon then return
  let token ← current
  if token.type = .closeBrace ∨ token.type = .endOfInput ∨ token.newlineBefore then return
  failAt (.unexpectedToken token) token

/-- Read something with `in` as an operator or not. -/
def allowingIn {α : Type} (allowed : Bool) (reader : Reader α) : Reader α := do
  let saved := (← get).noIn
  modify fun state => { state with noIn := !allowed }
  let result ← reader
  modify fun state => { state with noIn := saved }
  return result

/-- Read items one after another while `continues` says so.  Every item takes at
least one token, so the budget bounds the number of items. -/
def repeatWhile {α : Type} (continues : Reader Bool) (item : Reader α) : Reader (List α) := do
  loop (← get).budget
where
  loop : Nat → Reader (List α)
    | 0 => throw .nestingTooDeep
    | budget + 1 => do
        if ← continues then
          let first ← item
          let rest ← loop budget
          return first :: rest
        return []

/-- Read items with commas between them and an optional comma at the end, up to a
closing token, which is not read. -/
def commaList {α : Type} (closer : TokenType) (item : Reader α) : Reader (List α) := do
  loop (← get).budget
where
  loop : Nat → Reader (List α)
    | 0 => throw .nestingTooDeep
    | budget + 1 => do
        if ← check [closer] then return []
        let first ← item
        if ← accept .comma then
          return first :: (← loop budget)
        return [first]

/-- Read items with commas between them, of which there is at least one. -/
def commaItems {α : Type} (item : Reader α) : Reader (List α) := do
  loop (← get).budget
where
  loop : Nat → Reader (List α)
    | 0 => throw .nestingTooDeep
    | budget + 1 => do
        let first ← item
        if ← accept .comma then
          return first :: (← loop budget)
        return [first]

/-- Read items as `commaList` does, a comma in place of an item leaving a hole. -/
def holedList (closer : TokenType) (item : Reader Node) : Reader (List Node) := do
  loop (← get).budget
where
  loop : Nat → Reader (List Node)
    | 0 => throw .nestingTooDeep
    | budget + 1 => do
        if ← check [closer] then return []
        if ← accept .comma then
          return .absent :: (← loop budget)
        let first ← item
        if ← accept .comma then
          return first :: (← loop budget)
        return [first]

def leafOf (type : LeafType) (token : Token) : Node :=
  .leaf ⟨type, token.text,
    some ⟨token.start, token.line, token.column, some token.stop, some token.line,
      some token.endColumn⟩⟩

/-- A tree from a start token to the token read last. -/
def finishWith (flags : Flags) (kind : Kind) (children : List Node) (start : Token) :
    Reader Node := do
  let state ← get
  let last := state.previous.getD start
  let span : Span :=
    ⟨start.start, last.stop, start.line, start.column, last.line, last.endColumn⟩
  return .read kind flags state.source span children

/-- A tree without flags from a start token to the token read last. -/
def finish (kind : Kind) (children : List Node) (start : Token) : Reader Node :=
  finishWith {} kind children start

/-- The same stretch of text as a node of another kind. -/
def reshape (node : Node) (kind : Kind) (children : List Node) : Node :=
  match node with
  | .tree _ flags (some place) _ => .read kind flags place.source place.span children
  | _ => .made kind children

/-- The parts of the grammar that refer to each other, as readers. -/
structure Rules where
  statement : Reader Node
  expression : Reader Node
  assignment : Reader Node
  binary : Nat → Reader Node
  unary : Reader Node
  leftHandSide : Reader Node
  construction : Reader Node
  target : Reader Node

end Grammar

end ScriptFold
