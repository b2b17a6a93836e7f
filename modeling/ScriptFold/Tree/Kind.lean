import ScriptFold.Text.Basic

/-!
# Node kinds

The kinds of the nodes of a script tree and the category of each kind.  Trees that
are handed in may have kinds of other names; those have no category.
-/

namespace ScriptFold

inductive Kind where
  | literal | regex | thisExpr | superExpr | metaProperty | binding | emptyStmt | breakStmt
  | continueStmt | debuggerStmt | importDecl | importCall | exportNamed | exportAll | paren
  | exprStmt | returnStmt | throwStmt | yieldExpr | awaitExpr | spread | sequence | template
  | taggedTemplate | exportDefault | exportDecl | labeledStmt | withStmt | program | block
  | switchCase | binary | unary | logical | ifStmt | conditional | whileStmt | doWhileStmt
  | forStmt | forInStmt | forOfStmt | switchStmt | ident | call | newExpr | member | subscript
  | assign | prefixUpdate | postfixUpdate | varDecl | declarator | functionDecl | functionExpr
  | arrow | classDecl | classExpr | classBody | method | classField | staticBlock | array
  | object | property | shorthandProperty | computedKey | args | arrayPattern | objectPattern
  | patternProperty | assignPattern | rest | params | tryStmt | catchClause
  | other (name : String)
  deriving DecidableEq, Repr, Inhabited

/-- What sort of construct a kind belongs to. -/
inductive Category where
  | leaf | passthrough | statementList | binary | unary | logical | conditional | loop | switch
  | identifier | call | member | mutation | declaration | function | aggregate | pattern
  | compound
  deriving DecidableEq, Repr

/-- The name under which a category is reported. -/
def Category.name : Category → String
  | .leaf => "LEAF"
  | .passthrough => "PASSTHROUGH"
  | .statementList => "STATEMENT_LIST"
  | .binary => "BINARY"
  | .unary => "UNARY"
  | .logical => "LOGICAL"
  | .conditional => "CONDITIONAL"
  | .loop => "LOOP"
  | .switch => "SWITCH"
  | .identifier => "IDENTIFIER"
  | .call => "CALL"
  | .member => "MEMBER"
  | .mutation => "MUTATION"
  | .declaration => "DECLARATION"
  | .function => "FUNCTION"
  | .aggregate => "AGGREGATE"
  | .pattern => "PATTERN"
  | .compound => "COMPOUND"

namespace Kind

def all : List Kind := [
  .literal, .regex, .thisExpr, .superExpr, .metaProperty, .binding,
  .emptyStmt, .breakStmt, .continueStmt, .debuggerStmt, .importDecl, .importCall,
  .exportNamed, .exportAll, .paren, .exprStmt, .returnStmt, .throwStmt,
  .yieldExpr, .awaitExpr, .spread, .sequence, .template, .taggedTemplate,
  .exportDefault, .exportDecl, .labeledStmt, .withStmt, .program, .block,
  .switchCase, .binary, .unary, .logical, .ifStmt, .conditional,
  .whileStmt, .doWhileStmt, .forStmt, .forInStmt, .forOfStmt, .switchStmt,
  .ident, .call, .newExpr, .member, .subscript, .assign,
  .prefixUpdate, .postfixUpdate, .varDecl, .declarator, .functionDecl, .functionExpr,
  .arrow, .classDecl, .classExpr, .classBody, .method, .classField,
  .staticBlock, .array, .object, .property, .shorthandProperty, .computedKey,
  .args, .arrayPattern, .objectPattern, .patternProperty, .assignPattern, .rest,
  .params, .tryStmt, .catchClause]

def name : Kind → String
  | .literal => "literal"
  | .regex => "regex"
  | .thisExpr => "this_expr"
  | .superExpr => "super_expr"
  | .metaProperty => "meta_property"
  | .binding => "binding"
  | .emptyStmt => "empty_stmt"
  | .breakStmt => "break_stmt"
  | .continueStmt => "continue_stmt"
  | .debuggerStmt => "debugger_stmt"
  | .importDecl => "import_decl"
  | .importCall => "import_call"
  | .exportNamed => "export_named"
  | .exportAll => "export_all"
  | .paren => "paren"
  | .exprStmt => "expr_stmt"
  | .returnStmt => "return_stmt"
  | .throwStmt => "throw_stmt"
  | .yieldExpr => "yield_expr"
  | .awaitExpr => "await_expr"
  | .spread => "spread"
  | .sequence => "sequence"
  | .template => "template"
  | .taggedTemplate => "tagged_template"
  | .exportDefault => "export_default"
  | .exportDecl => "export_decl"
  | .labeledStmt => "labeled_stmt"
  | .withStmt => "with_stmt"
  | .program => "program"
  | .block => "block"
  | .switchCase => "switch_case"
  | .binary => "binary"
  | .unary => "unary"
  | .logical => "logical"
  | .ifStmt => "if_stmt"
  | .conditional => "conditional"
  | .whileStmt => "while_stmt"
  | .doWhileStmt => "do_while_stmt"
  | .forStmt => "for_stmt"
  | .forInStmt => "for_in_stmt"
  | .forOfStmt => "for_of_stmt"
  | .switchStmt => "switch_stmt"
  | .ident => "ident"
  | .call => "call"
  | .newExpr => "new"
  | .member => "member"
  | .subscript => "subscript"
  | .assign => "assign"
  | .prefixUpdate => "prefix_update"
  | .postfixUpdate => "postfix_update"
  | .varDecl => "var_decl"
  | .declarator => "declarator"
  | .functionDecl => "function_decl"
  | .functionExpr => "function_expr"
  | .arrow => "arrow"
  | .classDecl => "class_decl"
  | .classExpr => "class_expr"
  | .classBody => "class_body"
  | .method => "method"
  | .classField => "class_field"
  | .staticBlock => "static_block"
  | .array => "array"
  | .object => "object"
  | .property => "property"
  | .shorthandProperty => "shorthand_property"
  | .computedKey => "computed_key"
  | .args => "args"
  | .arrayPattern => "array_pattern"
  | .objectPattern => "object_pattern"
  | .patternProperty => "pattern_property"
  | .assignPattern => "assign_pattern"
  | .rest => "rest"
  | .params => "params"
  | .tryStmt => "try_stmt"
  | .catchClause => "catch_clause"
  | .other name => name

def ofName (name : String) : Kind :=
  (all.find? fun kind => kind.name == name).getD (.other name)

def category? : Kind → Option Category
  | .literal | .regex | .thisExpr | .superExpr | .metaProperty | .binding | .emptyStmt
  | .breakStmt | .continueStmt | .debuggerStmt | .importDecl | .exportNamed | .exportAll =>
      some .leaf
  | .importCall | .paren | .exprStmt | .returnStmt | .throwStmt | .yieldExpr | .awaitExpr
  | .spread | .sequence | .template | .taggedTemplate | .exportDefault | .exportDecl
  | .labeledStmt | .withStmt => some .passthrough
  | .program | .block | .switchCase => some .statementList
  | .binary => some .binary
  | .unary => some .unary
  | .logical => some .logical
  | .ifStmt | .conditional => some .conditional
  | .whileStmt | .doWhileStmt | .forStmt | .forInStmt | .forOfStmt => some .loop
  | .switchStmt => some .switch
  | .ident => some .identifier
  | .call | .newExpr => some .call
  | .member | .subscript => some .member
  | .assign | .prefixUpdate | .postfixUpdate => some .mutation
  | .varDecl | .declarator => some .declaration
  | .functionDecl | .functionExpr | .arrow | .classDecl | .classExpr | .classBody | .method
  | .classField | .staticBlock => some .function
  | .array | .object | .property | .shorthandProperty | .computedKey | .args => some .aggregate
  | .arrayPattern | .objectPattern | .patternProperty | .assignPattern | .rest | .params =>
      some .pattern
  | .tryStmt | .catchClause => some .compound
  | .other _ => none

/-- Whether a node of this kind may stand where a statement is expected. -/
def isStatement : Kind → Bool
  | .exprStmt | .varDecl | .ifStmt | .whileStmt | .doWhileStmt | .forStmt | .forInStmt
  | .forOfStmt | .switchStmt | .block | .emptyStmt | .breakStmt | .continueStmt | .returnStmt
  | .throwStmt | .tryStmt | .labeledStmt | .debuggerStmt | .functionDecl | .classDecl
  | .importDecl | .exportNamed | .exportAll | .exportDefault | .exportDecl | .withStmt | .program =>
      true
  | _ => false

end Kind

end ScriptFold
