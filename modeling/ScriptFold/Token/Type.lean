import ScriptFold.Text.Basic

/-!
# Token types

The types of the tokens of a script, with the names under which they are
reported, the reserved words and the operator spellings.
-/

namespace ScriptFold

inductive TokenType where
  | number | bigint | string | regex | ident | privateName | wholeTemplate | templateHead
  | templateMiddle | templateTail
  | kwVar | kwLet | kwConst | kwIf | kwElse | kwWhile | kwDo | kwFor | kwIn | kwSwitch | kwCase
  | kwDefault | kwBreak | kwContinue | kwReturn | kwThrow | kwTry | kwCatch | kwFinally
  | kwFunction | kwClass | kwExtends | kwNew | kwDelete | kwTypeof | kwVoid | kwInstanceof
  | kwThis | kwSuper | kwImport | kwExport | kwYield | kwAwait | kwDebugger | kwWith | kwTrue
  | kwFalse | kwNull
  | urshiftAssign | strictEqual | strictUnequal | powAssign | lshiftAssign | rshiftAssign
  | urshift | andAssign | orAssign | nullishAssign | ellipsis | arrow | equal | unequal | atMost
  | atLeast | and | or | nullish | optionalDot | plusAssign | minusAssign | starAssign
  | slashAssign | modAssign | ampAssign | pipeAssign | caretAssign | pow | increment | decrement
  | lshift | rshift | plus | minus | star | slash | mod | amp | pipe | caret | tilde | less
  | greater | not | assign | openParen | closeParen | openBracket | closeBracket | openBrace
  | closeBrace | dot | comma | colon | semicolon | question
  | endOfInput
  deriving DecidableEq, Repr, Inhabited

namespace TokenType

/-- The name under which a token type is reported. -/
def name : TokenType → String
  | .number => "NUMBER"
  | .bigint => "BIGINT"
  | .string => "STRING"
  | .regex => "REGEX"
  | .ident => "IDENT"
  | .privateName => "PRIVATE_NAME"
  | .wholeTemplate => "NO_SUBST_TEMPLATE"
  | .templateHead => "TEMPLATE_HEAD"
  | .templateMiddle => "TEMPLATE_MIDDLE"
  | .templateTail => "TEMPLATE_TAIL"
  | .kwVar => "VAR"
  | .kwLet => "LET"
  | .kwConst => "CONST"
  | .kwIf => "IF"
  | .kwElse => "ELSE"
  | .kwWhile => "WHILE"
  | .kwDo => "DO"
  | .kwFor => "FOR"
  | .kwIn => "IN"
  | .kwSwitch => "SWITCH"
  | .kwCase => "CASE"
  | .kwDefault => "DEFAULT"
  | .kwBreak => "BREAK"
  | .kwContinue => "CONTINUE"
  | .kwReturn => "RETURN"
  | .kwThrow => "THROW"
  | .kwTry => "TRY"
  | .kwCatch => "CATCH"
  | .kwFinally => "FINALLY"
  | .kwFunction => "FUNCTION"
  | .kwClass => "CLASS"
  | .kwExtends => "EXTENDS"
  | .kwNew => "NEW"
  | .kwDelete => "DELETE"
  | .kwTypeof => "TYPEOF"
  | .kwVoid => "VOID"
  | .kwInstanceof => "INSTANCEOF"
  | .kwThis => "THIS"
  | .kwSuper => "SUPER"
  | .kwImport => "IMPORT"
  | .kwExport => "EXPORT"
  | .kwYield => "YIELD"
  | .kwAwait => "AWAIT"
  | .kwDebugger => "DEBUGGER"
  | .kwWith => "WITH"
  | .kwTrue => "TRUE"
  | .kwFalse => "FALSE"
  | .kwNull => "NULL"
  | .urshiftAssign => "URSHIFTEQ"
  | .strictEqual => "SEQ"
  | .strictUnequal => "SNEQ"
  | .powAssign => "POWEQ"
  | .lshiftAssign => "LSHIFTEQ"
  | .rshiftAssign => "RSHIFTEQ"
  | .urshift => "URSHIFT"
  | .andAssign => "ANDEQ"
  | .orAssign => "OREQ"
  | .nullishAssign => "NULLISHEQ"
  | .ellipsis => "ELLIPSIS"
  | .arrow => "ARROW"
  | .equal => "EQ"
  | .unequal => "NEQ"
  | .atMost => "LTE"
  | .atLeast => "GTE"
  | .and => "AND"
  | .or => "OR"
  | .nullish => "NULLISH"
  | .optionalDot => "OPTIONAL_DOT"
  | .plusAssign => "PLUSEQ"
  | .minusAssign => "MINUSEQ"
  | .starAssign => "STAREQ"
  | .slashAssign => "SLASHEQ"
  | .modAssign => "MODEQ"
  | .ampAssign => "AMPEQ"
  | .pipeAssign => "PIPEEQ"
  | .caretAssign => "CARETEQ"
  | .pow => "POW"
  | .increment => "INCR"
  | .decrement => "DECR"
  | .lshift => "LSHIFT"
  | .rshift => "RSHIFT"
  | .plus => "PLUS"
  | .minus => "MINUS"
  | .star => "STAR"
  | .slash => "SLASH"
  | .mod => "MOD"
  | .amp => "AMP"
  | .pipe => "PIPE"
  | .caret => "CARET"
  | .tilde => "TILDE"
  | .less => "LT"
  | .greater => "GT"
  | .not => "NEG"
  | .assign => "ASSIGN"
  | .openParen => "LPAR"
  | .closeParen => "RPAR"
  | .openBracket => "LSQB"
  | .closeBracket => "RSQB"
  | .openBrace => "LBRACE"
  | .closeBrace => "RBRACE"
  | .dot => "DOT"
  | .comma => "COMMA"
  | .colon => "COLON"
  | .semicolon => "SEMI"
  | .question => "QMARK"
  | .endOfInput => "EOF"

/-- The reserved words. -/
def keywords : List (String × TokenType) := [
  ("var", .kwVar), ("let", .kwLet), ("const", .kwConst),
  ("if", .kwIf), ("else", .kwElse), ("while", .kwWhile),
  ("do", .kwDo), ("for", .kwFor), ("in", .kwIn),
  ("switch", .kwSwitch), ("case", .kwCase), ("default", .kwDefault),
  ("break", .kwBreak), ("continue", .kwContinue), ("return", .kwReturn),
  ("throw", .kwThrow), ("try", .kwTry), ("catch", .kwCatch),
  ("finally", .kwFinally), ("function", .kwFunction), ("class", .kwClass),
  ("extends", .kwExtends), ("new", .kwNew), ("delete", .kwDelete),
  ("typeof", .kwTypeof), ("void", .kwVoid), ("instanceof", .kwInstanceof),
  ("this", .kwThis), ("super", .kwSuper), ("import", .kwImport),
  ("export", .kwExport), ("yield", .kwYield), ("await", .kwAwait),
  ("debugger", .kwDebugger), ("with", .kwWith), ("true", .kwTrue),
  ("false", .kwFalse), ("null", .kwNull)]

/-- The operators and punctuation marks, longer spellings first. -/
def operators : List (String × TokenType) := [
  (">>>=", .urshiftAssign), ("===", .strictEqual), ("!==", .strictUnequal),
  ("**=", .powAssign), ("<<=", .lshiftAssign), (">>=", .rshiftAssign),
  (">>>", .urshift), ("&&=", .andAssign), ("||=", .orAssign),
  ("??=", .nullishAssign), ("...", .ellipsis), ("=>", .arrow),
  ("==", .equal), ("!=", .unequal), ("<=", .atMost),
  (">=", .atLeast), ("&&", .and), ("||", .or),
  ("??", .nullish), ("?.", .optionalDot), ("+=", .plusAssign),
  ("-=", .minusAssign), ("*=", .starAssign), ("/=", .slashAssign),
  ("%=", .modAssign), ("&=", .ampAssign), ("|=", .pipeAssign),
  ("^=", .caretAssign), ("**", .pow), ("++", .increment),
  ("--", .decrement), ("<<", .lshift), (">>", .rshift),
  ("+", .plus), ("-", .minus), ("*", .star),
  ("/", .slash), ("%", .mod), ("&", .amp),
  ("|", .pipe), ("^", .caret), ("~", .tilde),
  ("<", .less), (">", .greater), ("!", .not),
  ("=", .assign), ("(", .openParen), (")", .closeParen),
  ("[", .openBracket), ("]", .closeBracket), ("\x7b", .openBrace),
  ("\x7d", .closeBrace), (".", .dot), (",", .comma),
  (":", .colon), (";", .semicolon), ("?", .question)]

/-- The type of a word: a reserved word or a name. -/
def ofWord (word : Text) : TokenType :=
  match keywords.find? fun entry => word.isString entry.1 with
  | some entry => entry.2
  | none => .ident

/-- Whether a token type is a reserved word. -/
def isKeyword (type : TokenType) : Bool :=
  keywords.any fun entry => entry.2 == type

/-- Names of properties: names and all reserved words. -/
def isName (type : TokenType) : Bool :=
  type == .ident || type.isKeyword

/-- Tokens that end a value, so that a slash after one divides. -/
def endsValue : TokenType → Bool
  | .ident | .privateName | .number | .bigint | .string | .regex | .closeParen | .closeBracket
  | .closeBrace | .wholeTemplate | .templateTail | .kwThis | .kwSuper | .kwTrue | .kwFalse
  | .kwNull | .increment | .decrement => true
  | _ => false

/-- Assignment operators, plain or compound. -/
def isAssignment : TokenType → Bool
  | .assign | .plusAssign | .minusAssign | .starAssign | .slashAssign | .modAssign | .powAssign
  | .lshiftAssign | .rshiftAssign | .urshiftAssign | .ampAssign | .pipeAssign | .caretAssign
  | .andAssign | .orAssign | .nullishAssign => true
  | _ => false

end TokenType

end ScriptFold
