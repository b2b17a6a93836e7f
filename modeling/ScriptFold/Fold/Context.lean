import ScriptFold.Failure
import ScriptFold.Value.Basic

/-!
# What a fold knows

The bindings of a fold: values, functions, macros and fragments by name, and the
host that runs functions and macros written outside the script.
-/

namespace ScriptFold

/-- A table in which a later entry of a name takes the place of the earlier one. -/
abbrev Table (α : Type) := List (Text × α)

namespace Table

/-- Bind a name: in its place if it is bound, else at the end. -/
def insert {α : Type} (name : Text) (value : α) : Table α → Table α
  | [] => [(name, value)]
  | (key, old) :: rest =>
      if key = name then (key, value) :: rest else (key, old) :: insert name value rest

/-- Bind several names in turn. -/
def insertAll {α : Type} (pairs : List (Text × α)) (table : Table α) : Table α :=
  pairs.foldl (fun bound pair => insert pair.1 pair.2 bound) table

def ofPairs {α : Type} (pairs : List (Text × α)) : Table α :=
  insertAll pairs []

/-- Whether a name is bound. -/
def binds {α : Type} (table : Table α) (name : Text) : Bool :=
  (table.lookup name).isSome

variable {α : Type} {table : Table α} {name other : Text} {value : α} {entry : Text × α}

theorem mem_of_lookup (found : table.lookup name = some value) : (name, value) ∈ table := by
  obtain ⟨before, after, rfl, _⟩ := List.lookup_eq_some_iff.mp found
  exact List.mem_append_right _ List.mem_cons_self

theorem mem_insert (there : entry ∈ table.insert name value) :
    entry = (name, value) ∨ entry ∈ table := by
  induction table with
  | nil => exact .inl (List.mem_singleton.mp there)
  | cons first rest induction =>
      obtain ⟨key, old⟩ := first
      rw [insert] at there
      by_cases same : key = name
      · rw [if_pos same, List.mem_cons] at there
        rcases there with rfl | there
        · exact .inl (by rw [same])
        · exact .inr (List.mem_cons_of_mem _ there)
      · rw [if_neg same, List.mem_cons] at there
        rcases there with rfl | there
        · exact .inr List.mem_cons_self
        · exact (induction there).imp_right (List.mem_cons_of_mem _)

theorem mem_insertAll {pairs : List (Text × α)} (there : entry ∈ table.insertAll pairs) :
    entry ∈ pairs ∨ entry ∈ table := by
  induction pairs generalizing table with
  | nil => exact .inr there
  | cons pair rest induction =>
      rcases induction there with there | there
      · exact .inl (List.mem_cons_of_mem _ there)
      · rcases mem_insert there with rfl | there
        · exact .inl List.mem_cons_self
        · exact .inr there

theorem lookup_insert_self : (table.insert name value).lookup name = some value := by
  induction table with
  | nil => simp [insert]
  | cons first rest induction =>
      obtain ⟨key, old⟩ := first
      rw [insert]
      by_cases same : key = name
      · simp [same]
      · rw [if_neg same, List.lookup_cons, beq_false_of_ne (Ne.symm same)]
        exact induction

theorem lookup_insert_of_ne (differs : other ≠ name) :
    (table.insert name value).lookup other = table.lookup other := by
  induction table with
  | nil => simp [insert, List.lookup_cons, beq_false_of_ne differs]
  | cons first rest induction =>
      obtain ⟨key, old⟩ := first
      rw [insert]
      by_cases same : key = name
      · rw [if_pos same, List.lookup_cons, List.lookup_cons, same, beq_false_of_ne differs]
      · rw [if_neg same, List.lookup_cons, List.lookup_cons, induction]

theorem lookup_insertAll_of_ne {pairs : List (Text × α)}
    (differ : ∀ pair ∈ pairs, pair.1 ≠ name) :
    (table.insertAll pairs).lookup name = table.lookup name := by
  induction pairs generalizing table with
  | nil => rfl
  | cons pair rest induction =>
      have later := @induction (table.insert pair.1 pair.2) fun other there =>
        differ other (List.mem_cons_of_mem _ there)
      exact later.trans (lookup_insert_of_ne (differ pair List.mem_cons_self).symm)

end Table

/-- What a macro of the host gives for its arguments. -/
inductive Expansion where
  | nothing
  | node (node : Node)
  | many (items : List Expansion)
  /-- Something that is no tree, with the name of its type. -/
  | other (typeName : String)

/-- The functions and macros that are written outside the script, by name. -/
structure Host where
  call : String → List Value → Except Failure Value
  expand : String → List Node → Except Failure Expansion

def Host.none : Host :=
  ⟨fun _ _ => .error .host, fun _ _ => .error .host⟩

/-- A macro: a template in which arguments are written by number, or one of the host. -/
inductive MacroBinding where
  | template (text : Text)
  | host (name : String)

/-- What is bound while a script is folded. -/
structure Context where
  host : Host
  values : Table Value
  functions : Table String
  macros : Table MacroBinding
  fragments : Table Node
  /-- How deep macros may expand into macros. -/
  depthLimit : Int

/-- Something that a fold noticed and left as it is. -/
inductive Finding where
  | unknownKind (kind : Kind)
  | unexpectedInPattern (kind : Kind)
  | valueWithoutLiteral (name : Text)
  | propertyWithoutLiteral (key : Text)
  | unknownOperator (op : Text)
  deriving DecidableEq

namespace Finding

/-- The sort of a finding. -/
def kind : Finding → String
  | .unknownKind _ | .unexpectedInPattern _ => "unknown-node-kind"
  | .valueWithoutLiteral _ | .propertyWithoutLiteral _ => "unrepresentable-value"
  | .unknownOperator _ => "unknown-operator"

/-- The wording of a finding. -/
def message : Finding → String
  | .unknownKind kind => "No rewrite for '" ++ kind.name ++ "'; left as is"
  | .unexpectedInPattern kind => "Unexpected '" ++ kind.name ++ "' in a pattern"
  | .valueWithoutLiteral name => "'" ++ name.toString ++ "' has no literal form; left as is"
  | .propertyWithoutLiteral key =>
      "Property '" ++ key.toString ++ "' has no literal form; left as is"
  | .unknownOperator op => "Operator '" ++ op.toString ++ "' is not folded"

end Finding

/-- A finding and where it was made. -/
structure Diagnostic where
  finding : Finding
  position : Option (Nat × Nat)
  deriving DecidableEq

def Diagnostic.text (diagnostic : Diagnostic) : String :=
  let base := diagnostic.finding.kind ++ ": " ++ diagnostic.finding.message
  match diagnostic.position with
  | none => base
  | some (line, column) =>
      base ++ " (line " ++ digitsOf line ++ ", col " ++ digitsOf column ++ ")"

/-- Folding: a failure stops it, and the diagnostics made before are kept. -/
abbrev FoldM := ExceptT Failure (StateM (List Diagnostic))

namespace FoldM

/-- Note something about a node. -/
def report (finding : Finding) (node : Node) : FoldM Unit :=
  modify (· ++ [⟨finding, node.position?⟩])

/-- Stop because of a node. -/
def fail {α : Type} (cause : FoldError) (node : Node) : FoldM α :=
  throw (.fold cause node.position?)

def calculate {α : Type} (result : Except Fault α) : FoldM α :=
  match result with
  | .ok value => pure value
  | .error fault => throw (.fault fault)

/-- A step that may fail. -/
def attempt {α : Type} (result : Except Failure α) : FoldM α :=
  match result with
  | .ok value => pure value
  | .error failure => throw failure

/-- Read a script. -/
def parse (source : Source) : FoldM Node :=
  attempt ((parseScript source).mapError Failure.ofScriptError)

/-- Give failures without a position that of a node. -/
def locating {α : Type} (node : Node) (step : FoldM α) : FoldM α :=
  tryCatch step fun failure => throw (failure.locate node.position?)

end FoldM

end ScriptFold
