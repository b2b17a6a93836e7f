import ScriptFold.Evaluate
import ScriptFold.Value.Operator

/-!
# The stock host

A small set of functions and macros for scripts to be folded with.
-/

namespace ScriptFold

namespace Stock

/-- The sum of some values, one after another. -/
def sum (total : Value) : List Value → Except Failure Value
  | [] => .ok total
  | value :: rest =>
      match BinaryOp.addValues total value with
      | .ok next => sum next rest
      | .error fault => .error (.fault fault)

/-- The first argument, or undefined. -/
def firstOf (args : List Value) : Value :=
  args.headD .undefined

/-- The functions of the stock host. -/
def call (name : String) (args : List Value) : Except Failure Value :=
  match name with
  | "count" => .ok (.int args.length)
  | "first" => .ok (firstOf args)
  | "list" => .ok (.list args)
  | "tuple" => .ok (.tuple args)
  | "pair" => .ok (.record [(.string "n", .int args.length), (.string "items", .list args)])
  | "null" => .ok .null
  | "undef" => .ok .undefined
  | "nan" => .ok (.num Num.nan)
  | "neginf" => .ok (.num (Num.infinity true))
  | "negzero" => .ok (.float (Double.ofRank true 0))
  | "big" => .ok (.int 0x10000000000000000)
  | "type" => .ok (.string (firstOf args).typeOf.word)
  | "sum" => sum (.int 0) args
  | "opaque" => .ok .sealed
  | "inner_opaque" => .ok (.list [.int 1, .record [(.string "k", .sealed)]])
  | _ => .error .host

/-- The tree of a fixed text. -/
def parsed (text : String) : Except Failure Node :=
  (parseScript ⟨text, some (Text.ofString "<host>"), .fragment⟩).mapError Failure.ofScriptError

/-- The names of arguments in the scripts of macros. -/
def holes (index : Nat) : List Node → List (Text × FragmentBinding)
  | [] => []
  | node :: rest =>
      (Text.ofString ("$h" ++ digitsOf index), .tree node) :: holes (index + 1) rest

/-- A script folded with the arguments of a macro. -/
def scripted (text : String) (args : List Node) : Except Failure Expansion :=
  let run : FoldM Node :=
    Evaluate.tree Host.none { fragments := Table.ofPairs (holes 0 args) } 100
      ⟨text, none, .fragment⟩
  (run.run.run []).1.map .node

/-- The node of an argument that may be left out. -/
def optional : Option Node → Expansion
  | some node => .node node
  | none => .nothing

/-- The macros of the stock host. -/
def expand (name : String) (args : List Node) : Except Failure Expansion :=
  match name with
  | "first" => .ok (optional args.head?)
  | "last" => .ok (optional args.getLast?)
  | "none" => .ok .nothing
  | "all" => .ok (.many (args.map .node))
  | "reverse" => .ok (.many (args.reverse.map .node))
  | "twice" =>
      match args with
      | first :: _ => .ok (.many [.node first, .node first])
      | [] => .error (.fault .missingItem)
  | "nest" =>
      .ok (.many (args.flatMap fun arg => [.node arg, .nothing, .many [.node arg]]))
  | "int" => .ok (.other "int")
  | "str" => .ok (.other "str")
  | "mixed" => .ok (.many (args.map .node ++ [.other "float"]))
  | "token" => .ok (.other "Token")
  | "program" => (parsed "p(num); q(2 + 3);").map .node
  | "empty_program" => (parsed "").map .node
  | "expr_program" => (parsed "1 + 2").map .node
  | "block" => (parsed "\x7b let z = 1 + 1; \x7d").map fun tree => .node (tree.child 0)
  | "self" => (parsed "self()").map .node
  | "log" =>
      let callee := Node.made .ident [.word .name "log"]
      .ok (.node (.made .call [callee, .made .args args]))
  | "sanity" => scripted "if(!$h0) throw new Error()" args
  | "mul" => scripted "$h0 * $h1" args
  | "count" =>
      match Literal.ofValue? (.int args.length) with
      | .ok node => .ok (optional node)
      | .error fault => .error (.fault fault)
  | _ => .error .host

end Stock

def stockHost : Host :=
  ⟨Stock.call, Stock.expand⟩

end ScriptFold
