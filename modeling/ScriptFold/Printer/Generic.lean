import ScriptFold.Printer.Page
import ScriptFold.Printer.Precedence

/-!
# Printing without a source

How a node is written from its children alone.
-/

namespace ScriptFold

namespace Printer

/-- How a node is printed in its different positions. -/
structure Emitter where
  /-- Print the node at an index of a parent that asks for a precedence. -/
  emit : (parent : Node) → (index : Option Nat) → (least : Nat) → Print Unit
  /-- Print a declaration without its semicolon. -/
  declaration : Print Unit
  /-- Print a property key. -/
  key : (parent : Node) → Print Unit

/-- A child of a node that is being printed. -/
structure Part where
  node : Node
  seat : Option Nat
  emitter : Emitter

/-- Print a child. -/
def Part.emit (part : Part) (parent : Node) (index least : Nat) : Print Unit :=
  part.emitter.emit parent (some index) least

def stop {α : Type} (fault : Fault) : Print α :=
  throw (.fault fault)

/-- The child at an index. -/
def partAt (parts : List Part) (index : Nat) : Print Part :=
  match parts[index]? with
  | some part => pure part
  | none => stop .missingItem

def calculate {α : Type} (result : Except Fault α) : Print α :=
  match result with
  | .ok value => pure value
  | .error fault => stop fault

/-- Print parts with a separator between them, counted from `index`. -/
def emitSeparated (separator : Text) (parent : Node) (least : Nat) :
    (index : Nat) → List Part → Print Unit
  | _, [] => pure ()
  | index, part :: rest => do
      if index ≠ 0 then write separator
      part.emit parent index least
      emitSeparated separator parent least (index + 1) rest

/-- Print statements on lines of their own, counted from `index`. -/
def emitLines (lead : Text) (parent : Node) : (index : Nat) → List Part → Print Unit
  | _, [] => pure ()
  | index, part :: rest => do
      write lead
      part.emit parent index 0
      emitLines lead parent (index + 1) rest

/-- Print statements on lines of their own, one step further in. -/
def emitStatements (parent : Node) (index : Nat) (parts : List Part) : Print Unit := do
  let inner := (← currentIndent) ++ Text.ofString "  "
  emitLines (.char '\n' :: inner) parent index parts

/-- Print items in braces, each on a line of its own. -/
def emitBody (parent : Node) (index : Nat) (parts : List Part) : Print Unit := do
  if parts.isEmpty then
    write "\x7b\x7d"
  else
    let base ← currentIndent
    write "\x7b"
    emitStatements parent index parts
    write (.char '\n' :: base ++ Text.ofString "\x7d")

/-- Print the members of an object, with commas between them. -/
def emitMembers (lead : Text) (parent : Node) : (index : Nat) → List Part → Print Unit
  | _, [] => pure ()
  | index, part :: rest => do
      write lead
      part.emit parent index Precedence.assign
      if !rest.isEmpty then write ","
      emitMembers lead parent (index + 1) rest

def emitObject (parent : Node) (parts : List Part) : Print Unit := do
  if parts.isEmpty then
    write "\x7b\x7d"
  else
    let base ← currentIndent
    write "\x7b"
    emitMembers (.char '\n' :: base ++ Text.ofString "  ") parent 0 parts
    write (.char '\n' :: base ++ Text.ofString "\x7d")

/-- Print the pieces and substitutions of a template in turn. -/
def emitTemplate (parent : Node) : (index : Nat) → List Part → Print Unit
  | _, [] => pure ()
  | index, part :: rest => do
      if index % 2 = 0 then
        write part.node.description
      else
        write "$\x7b"
        part.emit parent index 0
        write "\x7d"
      emitTemplate parent (index + 1) rest

/-- Print a child after a text, if there is a child. -/
def emitAfter (lead : Text) (part : Part) (parent : Node) (index least : Nat) : Print Unit := do
  if !part.node.isAbsent then
    write lead
    part.emit parent index least

/-- Print the kind and the declarators of a declaration. -/
def emitDeclaration (node : Node) (parts : List Part) : Print Unit := do
  let kind ← partAt parts 0
  write (kind.node.description ++ Text.ofString " ")
  emitSeparated ", " node 0 0 (parts.drop 1)

/-- Print the first part of the head of a `for`. -/
def emitInitial (part : Part) (parent : Node) : Print Unit :=
  if part.node.isKind .varDecl then part.emitter.declaration else part.emit parent 0 0

/-- Print the words before the name of a function. -/
def emitFunctionHead (flags : Flags) : Print Unit := do
  if flags.isAsync then write "async "
  write "function"
  if flags.isGenerator then write "*"

/-- Print the words before the key of a method. -/
def emitMethodHead (flags : Flags) : Print Unit := do
  if flags.isStatic then write "static "
  if flags.isAsync then write "async "
  match flags.methodKind with
  | some "get" => write "get "
  | some "set" => write "set "
  | _ => pure ()
  if flags.isGenerator then write "*"

/-- Print a statement that is a word and an optional operand. -/
def emitWord (word : Text) (node : Node) (parts : List Part) : Print Unit := do
  write word
  emitAfter " " (← partAt parts 0) node 0 0
  write ";"

def statement (kind : Kind) (flags : Flags) (node : Node) (parts : List Part) :
    Print Unit := do
  let part := partAt parts
  match kind with
  | .program => emitSeparated "\n" node 0 0 parts
  | .block | .classBody => emitBody node 0 parts
  | .emptyStmt => write ";"
  | .exprStmt =>
      (← part 0).emit node 0 0
      write ";"
  | .varDecl =>
      emitDeclaration node parts
      write ";"
  | .declarator =>
      (← part 0).emit node 0 0
      emitAfter " = " (← part 1) node 1 Precedence.assign
  | .ifStmt =>
      write "if ("
      (← part 0).emit node 0 0
      write ") "
      (← part 1).emit node 1 0
      emitAfter " else " (← part 2) node 2 0
  | .whileStmt =>
      write "while ("
      (← part 0).emit node 0 0
      write ") "
      (← part 1).emit node 1 0
  | .doWhileStmt =>
      write "do "
      (← part 0).emit node 0 0
      write " while ("
      (← part 1).emit node 1 0
      write ");"
  | .forStmt =>
      write "for ("
      emitInitial (← part 0) node
      write (if (← part 1).node.isAbsent then ";" else "; " : String)
      (← part 1).emit node 1 0
      write (if (← part 2).node.isAbsent then ";" else "; " : String)
      (← part 2).emit node 2 0
      write ") "
      (← part 3).emit node 3 0
  | .forInStmt | .forOfStmt =>
      write (if flags.isAwait then "for await (" else "for (" : String)
      emitInitial (← part 0) node
      write (if kind = .forInStmt then " in " else " of " : String)
      (← part 1).emit node 1 Precedence.assign
      write ") "
      (← part 2).emit node 2 0
  | .switchStmt =>
      write "switch ("
      (← part 0).emit node 0 0
      write ") "
      emitBody node 1 (parts.drop 1)
  | .switchCase =>
      let test ← part 0
      if test.node.isAbsent then
        write "default:"
      else
        write "case "
        test.emit node 0 0
        write ":"
      emitStatements node 1 (parts.drop 1)
  | .breakStmt => emitWord "break" node parts
  | .continueStmt => emitWord "continue" node parts
  | .returnStmt => emitWord "return" node parts
  | .throwStmt =>
      write "throw "
      (← part 0).emit node 0 0
      write ";"
  | .tryStmt =>
      write "try "
      (← part 0).emit node 0 0
      emitAfter " " (← part 1) node 1 0
      emitAfter " finally " (← part 2) node 2 0
  | .catchClause =>
      write "catch "
      let param ← part 0
      if !param.node.isAbsent then
        write "("
        param.emit node 0 0
        write ") "
      (← part 1).emit node 1 0
  | .labeledStmt =>
      (← part 0).emit node 0 0
      write ": "
      (← part 1).emit node 1 0
  | .withStmt =>
      write "with ("
      (← part 0).emit node 0 0
      write ") "
      (← part 1).emit node 1 0
  | .debuggerStmt => write "debugger;"
  | .exportDefault =>
      let exported ← part 0
      write "export default "
      exported.emit node 0 Precedence.assign
      if !exported.node.isOneOf [.functionDecl, .classDecl] then write ";"
  | .exportDecl =>
      write "export "
      (← part 0).emit node 0 0
  | _ => throw (.unprintable kind)

/-- Print a function, class or member from its parts. -/
def callable (kind : Kind) (flags : Flags) (node : Node) (parts : List Part) : Print Unit := do
  let part := partAt parts
  match kind with
  | .functionDecl | .functionExpr =>
      emitFunctionHead flags
      emitAfter " " (← part 0) node 0 0
      (← part 1).emit node 1 0
      write " "
      (← part 2).emit node 2 0
  | .arrow =>
      if flags.isAsync then write "async "
      (← part 0).emit node 0 0
      write " => "
      (← part 1).emit node 1 Precedence.assign
  | .params =>
      write "("
      emitSeparated ", " node Precedence.assign 0 parts
      write ")"
  | .classDecl | .classExpr =>
      write "class"
      emitAfter " " (← part 0) node 0 0
      emitAfter " extends " (← part 1) node 1 Precedence.call
      write " "
      (← part 2).emit node 2 0
  | .method =>
      emitMethodHead flags
      (← part 0).emitter.key node
      (← part 1).emit node 1 0
      write " "
      (← part 2).emit node 2 0
  | .classField =>
      if flags.isStatic then write "static "
      (← part 0).emitter.key node
      emitAfter " = " (← part 1) node 1 Precedence.assign
      write ";"
  | .staticBlock =>
      write "static "
      (← part 0).emit node 0 0
  | _ => statement kind flags node parts

/-- Print an aggregate or a pattern from its parts. -/
def aggregate (kind : Kind) (flags : Flags) (node : Node) (parts : List Part) : Print Unit := do
  let part := partAt parts
  match kind with
  | .spread | .rest =>
      write "..."
      (← part 0).emit node 0 Precedence.assign
  | .args =>
      write "("
      emitSeparated ", " node Precedence.assign 0 parts
      write ")"
  | .array | .arrayPattern =>
      write "["
      emitSeparated ", " node Precedence.assign 0 parts
      if (parts.getLast?.any fun part => part.node.isAbsent) then write ","
      write "]"
  | .object => emitObject node parts
  | .objectPattern =>
      write "\x7b"
      if !parts.isEmpty then
        write " "
        emitSeparated ", " node Precedence.assign 0 parts
        write " "
      write "\x7d"
  | .property =>
      (← part 0).emitter.key node
      write ": "
      (← part 1).emit node 1 Precedence.assign
  | .shorthandProperty => (← part 0).emit node 0 0
  | .patternProperty =>
      if flags.shorthand then
        (← part 1).emit node 1 0
      else
        (← part 0).emitter.key node
        write ": "
        (← part 1).emit node 1 0
  | .assignPattern =>
      (← part 0).emit node 0 0
      write " = "
      (← part 1).emit node 1 Precedence.assign
  | .computedKey =>
      write "["
      (← part 0).emit node 0 Precedence.assign
      write "]"
  | _ => callable kind flags node parts

def isWordOperator (op : Text) : Bool :=
  op.isOneOf ["typeof", "void", "delete"]

/-- Print a node from its parts. -/
def generic (kind : Kind) (flags : Flags) (node : Node) (parts : List Part) : Print Unit := do
  let part := partAt parts
  let blank := Text.ofString " "
  match kind with
  | .importDecl | .exportNamed | .exportAll | .metaProperty | .regex | .literal | .ident
  | .binding => write (← part 0).node.description
  | .thisExpr => write "this"
  | .superExpr => write "super"
  | .paren =>
      write "("
      (← part 0).emit node 0 0
      write ")"
  | .sequence => emitSeparated ", " node Precedence.yield 0 parts
  | .template =>
      write "\x60"
      emitTemplate node 0 parts
      write "\x60"
  | .taggedTemplate =>
      (← part 0).emit node 0 Precedence.call
      (← part 1).emit node 1 0
  | .unary =>
      let op := (← part 0).node.description
      write (if isWordOperator op then op ++ blank else op)
      (← part 1).emit node 1 Precedence.unary
  | .prefixUpdate =>
      write (← part 0).node.description
      (← part 1).emit node 1 Precedence.afterOperand
  | .postfixUpdate =>
      (← part 0).emit node 0 Precedence.call
      write (← part 1).node.description
  | .awaitExpr =>
      write "await "
      (← part 0).emit node 0 Precedence.unary
  | .yieldExpr =>
      write (if flags.delegate then "yield*" else "yield" : String)
      emitAfter " " (← part 0) node 0 Precedence.assign
  | .binary | .logical =>
      (← part 0).emit node 0 (← calculate (Precedence.ofSlot node 0))
      write (blank ++ (← part 1).node.description ++ blank)
      (← part 2).emit node 2 (← calculate (Precedence.ofSlot node 2))
  | .assign =>
      (← part 0).emit node 0 Precedence.call
      write (blank ++ (← part 1).node.description ++ blank)
      (← part 2).emit node 2 Precedence.assign
  | .conditional =>
      (← part 0).emit node 0 (Precedence.conditional + 1)
      write " ? "
      (← part 1).emit node 1 Precedence.assign
      write " : "
      (← part 2).emit node 2 Precedence.assign
  | .call =>
      (← part 0).emit node 0 Precedence.call
      if flags.optional then write "?."
      (← part 1).emit node 1 0
  | .newExpr =>
      write "new "
      (← part 0).emit node 0 Precedence.call
      (← part 1).emit node 1 0
  | .member =>
      (← part 0).emit node 0 Precedence.call
      write (if flags.optional then "?." else "." : String)
      (← part 1).emit node 1 0
  | .subscript =>
      (← part 0).emit node 0 Precedence.call
      write (if flags.optional then "?.[" else "[" : String)
      (← part 1).emit node 1 0
      write "]"
  | .importCall =>
      write "import("
      (← part 0).emit node 0 Precedence.assign
      write ")"
  | _ => aggregate kind flags node parts

end Printer

end ScriptFold
