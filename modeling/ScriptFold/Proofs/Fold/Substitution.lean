import ScriptFold.Evaluate
import ScriptFold.Fault
import ScriptFold.Proofs.Fold.Returns
import ScriptFold.Proofs.Number.Numeral
import ScriptFold.Proofs.Tree.Placed

/-!
# Expanding templates

A template is to be expanded as if its arguments were written in it.  That fails where a
placeholder is called, constructed or deleted: folding looks at such a name but never puts
anything in its place, whatever is bound to it.  It fails as well where a template calls a
macro with fewer arguments than its own, since the placeholders of the outer expansion are
still bound in the inner one.
-/

namespace ScriptFold

open FoldM (Returns)

namespace Node

mutual

/-- A tree in which the names of a table are replaced by what they stand for, in parentheses. -/
def substitute (table : Table Node) : Node → Node
  | .absent => .absent
  | .leaf token => .leaf token
  | .tree .ident flags place children =>
      let node := Node.tree .ident flags place children
      match (Name.of? node).bind fun name => table.lookup name with
      | some argument => .made .paren [argument]
      | none => node
  | .tree .shorthandProperty flags place [⟨seat, ident⟩] =>
      match (Name.of? ident).bind fun name => table.lookup name with
      | some argument => .made .property [ident.child 0, .made .paren [argument]]
      | none => .tree .shorthandProperty flags place [⟨seat, ident⟩]
  | .tree kind flags place children => .tree kind flags place (substituteAll table children)

/-- Children in which the names of a table are replaced. -/
def substituteAll (table : Table Node) : List (Child Node) → List (Child Node)
  | [] => []
  | ⟨seat, node⟩ :: rest => ⟨seat, substitute table node⟩ :: substituteAll table rest

end

end Node

namespace Fold

def scriptOf (expression : Node) : Node :=
  .made .program [.made .exprStmt [expression]]

/-- The core of what a script of one expression is folded to, if it can be folded. -/
def foldedScript? (context : Context) (expression : Node) : Option Node :=
  ((program context (scriptOf expression)).run.run []).1.toOption.map Node.core

def callOf (name : Text) (args : List Node) : Node :=
  .made .call [.made .ident [.word .name name], .made .args args]

def templateExpression? (name template : Text) : Option Node :=
  let sourceName := Text.ofString "<macro " ++ name ++ Text.ofString ">"
  match parseScript ⟨template, some sourceName, .fragment⟩ with
  | .ok (.tree .program _ _ [⟨_, .tree .exprStmt _ _ [⟨_, expression⟩]⟩]) => some expression
  | _ => none

/-- Calling a macro comes to the same as its template with the arguments in place of their
numbers. -/
def ExpandsBySubstitution (context : Context) (name : Text) (args : List Node) : Prop :=
  ∀ template expression,
    context.macros.lookup name = some (.template template) →
    templateExpression? name template = some expression →
    foldedScript? context (callOf name args) =
      foldedScript? context (expression.substitute (numbered 0 args))

def identName? (node : Node) : Option Text :=
  if node.isKind .ident then Name.of? node else none

/-- An expression that calls, constructs or deletes what a name stands for. -/
inductive Uses (name : Text) : Node → Prop where
  | called {flags : Flags} {place : Option Place} {callee : Child Node}
      {rest : List (Child Node)} (named : identName? callee.node = some name) :
      Uses name (.tree .call flags place (callee :: rest))
  | constructed {flags : Flags} {place : Option Place} {callee : Child Node}
      {rest : List (Child Node)} (named : identName? callee.node = some name) :
      Uses name (.tree .newExpr flags place (callee :: rest))
  | deleted {flags : Flags} {place : Option Place} {seat : Option Nat}
      {found : Option LeafPlace} {target : Child Node} {rest : List (Child Node)}
      (named : identName? target.node = some name) :
      Uses name (.tree .unary flags place
        (⟨seat, .leaf ⟨.op, "delete", found⟩⟩ :: target :: rest))

/-- The name that an expression calls, constructs or deletes. -/
def usedName? : Node → Option Text
  | .tree .call _ _ (callee :: _) => identName? callee.node
  | .tree .newExpr _ _ (callee :: _) => identName? callee.node
  | .tree .unary _ _ (⟨_, .leaf ⟨.op, word, _⟩⟩ :: target :: _) =>
      if word.isString "delete" then identName? target.node else none
  | _ => none

theorem usedName?_eq_some_iff {name : Text} {node : Node} :
    usedName? node = some name ↔ Uses name node := by
  constructor
  · intro isName
    unfold usedName? at isName
    split at isName
    case h_1 => exact .called isName
    case h_2 => exact .constructed isName
    case h_3 =>
      split at isName
      case isTrue isDelete =>
        cases eq_of_beq isDelete
        exact .deleted isName
      case isFalse => cases isName
    case h_4 => cases isName
  · intro uses
    cases uses with
    | called named => exact named
    | constructed named => exact named
    | deleted named => exact named

def StatementUses (name : Text) (node : Node) : Prop :=
  ∃ flags place expression, node = .tree .exprStmt flags place [expression] ∧
    Uses name expression.node

def ScriptUses (name : Text) (node : Node) : Prop :=
  ∃ flags place seat statement, node = .tree .program flags place [⟨seat, statement⟩] ∧
    StatementUses name statement

/-- Neither a function nor a macro has this name. -/
structure Inert (context : Context) (name : Text) : Prop where
  notFunction : context.functions.binds name = false
  notMacro : context.macros.binds name = false

variable {context : Context} {name : Text}

private theorem callee_of_identName? {node : Node} (named : identName? node = some name)
    (inert : Inert context name) : Name.callee context node = .other := by
  have noFunction : context.functions.lookup name = none := by
    simpa [Table.binds] using inert.notFunction
  have isIdent : (if node.isKind .ident then Name.of? node else none) = some name := named
  simp only [Name.callee, isIdent, noFunction, inert.notMacro]
  rfl

theorem isIdent_of_identName? {node : Node} (named : identName? node = some name) :
    ∃ flags place children, node = .tree .ident flags place children := by
  cases node with
  | absent => cases named
  | leaf token => cases named
  | tree kind flags place children =>
      by_cases isIdent : kind = .ident
      · exact ⟨flags, place, children, isIdent ▸ rfl⟩
      · simp [identName?, Node.isKind, Node.kind?, isIdent] at named

/-- Of a call of a name that stands for no function and no macro, only the arguments are
folded. -/
theorem call_of_identName? {walker : Walker} {branch : Branch} {callee : Child Node}
    {rest : List (Child Node)} (isFirst : branch.children = callee :: rest)
    (named : identName? callee.node = some name) (inert : Inert walker.context name) :
    Chain.call walker branch = (do
      let (args, _) ← Chain.callArguments walker branch
      return branch.keep ((branch.children.set 0 callee).set 1 args)) := by
  obtain ⟨kind, flags, place, children⟩ := branch
  cases isFirst
  have other := callee_of_identName? named inert
  obtain ⟨seat, node⟩ := callee
  obtain ⟨identFlags, identPlace, names, rfl⟩ := isIdent_of_identName? named
  simp only [Chain.call, Branch.child, List.getElem?_cons_zero, pure_bind, other]
  cases kind <;> rfl

/-- A callee that is a name stays, whatever is bound to it. -/
theorem call_keeps_callee {walker : Walker} {kind : Kind} {flags : Flags} {place : Option Place}
    {callee : Child Node} {rest : List (Child Node)} {folded : Folded}
    (named : identName? callee.node = some name) (inert : Inert walker.context name)
    (returns : Returns (Chain.call walker ⟨kind, flags, place, callee :: rest⟩) folded) :
    ∃ others, folded = .same (.tree kind flags place (callee :: others)) := by
  rw [call_of_identName? rfl named inert] at returns
  obtain ⟨⟨args, values⟩, _, returns⟩ := returns.of_bind
  cases returns.eq_of_pure
  exact ⟨rest.set 0 args, rfl⟩

/-- A deleted name stays, whatever is bound to it. -/
theorem delete_keeps_target {walker : Walker} {node result : Node}
    (named : identName? node = some name)
    (returns : Returns (Target.delete walker node) result) : result = node := by
  obtain ⟨flags, place, children, rfl⟩ := isIdent_of_identName? named
  rw [Target.delete] at returns
  obtain ⟨found, _, returns⟩ := returns.of_bind
  cases found with
  | none => exact absurd returns FoldM.not_returns_throw
  | some outcome => exact returns.eq_of_pure

/-- One step of folding keeps the name. -/
theorem step_keeps_use {walker : Walker} {kind : Kind} {flags : Flags} {place : Option Place}
    {children : List (Child Node)} {folded : Folded}
    (uses : Uses name (.tree kind flags place children)) (inert : Inert walker.context name)
    (returns : Returns (step walker ⟨kind, flags, place, children⟩) folded) :
    ∃ node, folded = .same node ∧ Uses name node := by
  cases uses with
  | called named =>
      obtain ⟨others, rfl⟩ := call_keeps_callee named inert returns
      exact ⟨_, rfl, .called named⟩
  | constructed named =>
      obtain ⟨others, rfl⟩ := call_keeps_callee named inert returns
      exact ⟨_, rfl, .constructed named⟩
  | deleted named =>
      obtain ⟨word, isWord, returns⟩ := returns.of_bind
      cases isWord.eq_of_pure
      obtain ⟨target, isTarget, returns⟩ := returns.of_bind
      cases isTarget.eq_of_pure
      obtain ⟨result, deleted, returns⟩ := returns.of_bind
      cases delete_keeps_target named deleted
      cases returns.eq_of_pure
      exact ⟨_, rfl, .deleted named⟩

variable {expand : Expander} {levels : Nat} {node : Node} {folded : Folded}

private theorem walkAt_keeps_use (uses : Uses name node) (inert : Inert context name)
    (returns : Returns (walkAt context expand levels node) folded) :
    ∃ result, folded = .same result ∧ Uses name result := by
  cases levels with
  | zero =>
      rw [walkAt.eq_def] at returns
      cases returns.eq_of_pure
      exact ⟨node, rfl, uses⟩
  | succ levels =>
      cases node with
      | tree kind flags place children => exact step_keeps_use uses inert returns.of_locating
      | absent => cases uses
      | leaf token => cases uses

private theorem walkAt_keeps_statement (uses : StatementUses name node) (inert : Inert context name)
    (returns : Returns (walkAt context expand levels node) folded) :
    ∃ result, folded = .same result ∧ StatementUses name result := by
  cases levels with
  | zero =>
      rw [walkAt.eq_def] at returns
      cases returns.eq_of_pure
      exact ⟨node, rfl, uses⟩
  | succ levels =>
      obtain ⟨flags, place, expression, rfl, uses⟩ := uses
      obtain ⟨child, isChild, returns⟩ := returns.of_locating.of_bind
      cases isChild.eq_of_pure
      obtain ⟨inner, walked, returns⟩ := returns.of_bind
      obtain ⟨result, rfl, uses⟩ := walkAt_keeps_use uses inert walked
      have kept : folded = .same (.tree .exprStmt flags place [⟨expression.seat, result⟩]) := by
        cases uses <;> exact returns.eq_of_pure
      exact ⟨_, kept, flags, place, _, rfl, uses⟩

private theorem walkAt_keeps_script (uses : ScriptUses name node) (inert : Inert context name)
    (returns : Returns (walkAt context expand levels node) folded) :
    ∃ result, folded = .same result ∧ ScriptUses name result := by
  cases levels with
  | zero =>
      rw [walkAt.eq_def] at returns
      cases returns.eq_of_pure
      exact ⟨node, rfl, uses⟩
  | succ levels =>
      obtain ⟨flags, place, seat, statement, rfl, uses⟩ := uses
      obtain ⟨statements, listed, returns⟩ := returns.of_locating.of_bind
      cases returns.eq_of_pure
      obtain ⟨inner, walked, listed⟩ := listed.of_bind
      obtain ⟨others, isNil, listed⟩ := listed.of_bind
      cases isNil.eq_of_pure
      cases listed.eq_of_pure
      obtain ⟨result, rfl, uses⟩ := walkAt_keeps_statement uses inert walked
      obtain ⟨innerFlags, innerPlace, expression, rfl, uses⟩ := uses
      exact ⟨_, rfl, flags, place, seat, _, rfl, innerFlags, innerPlace, expression, rfl, uses⟩

theorem foldWithin_keeps_script {depth : Nat} (uses : ScriptUses name node)
    (inert : Inert context name) (returns : Returns (foldWithin depth context node) folded) :
    ∃ result, folded = .same result ∧ ScriptUses name result := by
  cases depth <;> exact walkAt_keeps_script uses inert returns

private theorem scriptUses_of_template {macroName template : Text}
    (isTemplate : (templateExpression? macroName template).bind usedName? = some name) :
    ∃ program,
      parseScript ⟨template, some (Text.ofString "<macro " ++ macroName ++ Text.ofString ">"),
        .fragment⟩ = .ok program ∧ ScriptUses name program := by
  obtain ⟨expression, isExpression, isName⟩ := Option.bind_eq_some_iff.mp isTemplate
  unfold templateExpression? at isExpression
  simp only at isExpression
  split at isExpression
  case h_1 parsed =>
    cases isExpression
    exact ⟨_, parsed, _, _, _, _, rfl, _, _, _, rfl, usedName?_eq_some_iff.mp isName⟩
  case h_2 => cases isExpression

/-- A template that calls, constructs or deletes a name still does so when it is expanded,
whatever its arguments are and whichever of them the name stands for. -/
theorem expandTemplate_keeps_name {depth : Nat} {macroName template : Text} {args : List Node}
    (isTemplate : (templateExpression? macroName template).bind usedName? = some name)
    (inert : Inert context name)
    (returns : Returns (expandTemplate (foldWithin depth) context macroName template args)
      folded) :
    ∃ flags place expression,
      folded = .instead (.tree .exprStmt flags place [expression]) ∧
        usedName? expression.node = some name := by
  obtain ⟨program, parsed, uses⟩ := scriptUses_of_template isTemplate
  obtain ⟨read, isRead, returns⟩ := returns.of_bind
  rw [FoldM.parse, parsed] at isRead
  cases isRead.eq_of_pure
  obtain ⟨substituted, walked, returns⟩ := returns.of_bind
  have stillInert : Inert { context with
      fragments := context.fragments.insertAll (numbered 0 args) } name := ⟨inert.1, inert.2⟩
  obtain ⟨first, rfl, uses⟩ := foldWithin_keeps_script uses stillInert walked
  obtain ⟨again, walked, returns⟩ := returns.of_bind
  obtain ⟨second, rfl, uses⟩ := foldWithin_keeps_script uses inert walked
  cases returns.eq_of_pure
  obtain ⟨scriptFlags, scriptPlace, seat, statement, rfl, uses⟩ := uses
  obtain ⟨flags, place, expression, rfl, uses⟩ := uses
  exact ⟨flags, place, expression, rfl, usedName?_eq_some_iff.mpr uses⟩

/-- The name that stands for the argument of an index in a template. -/
def indexName (index : Nat) : Text :=
  .char '$' :: Text.ofString (digitsOf index)

private theorem indexName_inj {index other : Nat}
    (same : indexName index = indexName other) : index = other := by
  obtain ⟨first, rest, isText, areDigits, isValue, _⟩ := Numeral.exists_digits index
  obtain ⟨start, more, isOther, areOthers, isNext, _⟩ := Numeral.exists_digits other
  have digits := (Numeral.digits?_textOf areDigits).symm.trans
    ((congrArg (Numeral.digits? 10) (isText.symm.trans
      ((List.cons.inj same).2.trans isOther))).trans (Numeral.digits?_textOf areOthers))
  rw [← isValue, ← isNext, Option.some.inj digits]

private theorem numbered_ne {args : List Node} {start index : Nat}
    (beyond : start + args.length ≤ index) :
    ∀ pair ∈ numbered start args, pair.1 ≠ indexName index := by
  induction args generalizing start with
  | nil => nofun
  | cons arg rest induction =>
      rw [List.length_cons] at beyond
      intro pair there
      rcases List.mem_cons.mp there with rfl | there
      · intro same
        have := indexName_inj same
        omega
      · exact induction (by omega) pair there

/-- In the expansion of a template, a number that goes beyond the arguments of the call stands for
what it stands for outside: it is the argument of an enclosing expansion if there is one. -/
theorem fold_beyond_arguments {walker : Walker} {branch : Branch} {args : List Node} {index : Nat}
    (named : Name.of? branch.toNode = some (indexName index)) (beyond : args.length ≤ index) :
    Name.fold { walker with context := { walker.context with
        fragments := walker.context.fragments.insertAll (numbered 0 args) } } branch =
      Name.fold walker branch := by
  have outside := @Table.lookup_insertAll_of_ne _ walker.context.fragments _ _
    (numbered_ne (show 0 + args.length ≤ index by omega))
  unfold Name.fold
  simp only [named, outside]
  rfl

def bindingTemplate (name template : Text) : Context :=
  ⟨Host.none, [], [], [(name, .template template)], [], 100⟩

def identOf (name : Text) : Node :=
  .made .ident [.word .name name]

theorem returns_of_isSome {α : Type} {step : FoldM α}
    (isSome : (step.run.run []).1.toOption.isSome) : ∃ value, Returns step value := by
  obtain ⟨value, isValue⟩ := Option.isSome_iff_exists.mp isSome
  exact ⟨value, [], _, Prod.ext (Calculation.eq_ok_of_toOption isValue) rfl⟩

def deletingFirst : Text :=
  "delete $0"

theorem deletingFirst_keeps_name :
    ∃ folded flags place expression,
      Returns (expandTemplate (foldWithin 0) (bindingTemplate "m" deletingFirst) "m"
        deletingFirst [identOf "x"]) folded ∧
      folded = .instead (.tree .exprStmt flags place [expression]) ∧
      usedName? expression.node = some "$0" := by
  have isTemplate : (templateExpression? "m" deletingFirst).bind usedName? = some "$0" := by
    decide +kernel
  have inert : Inert (bindingTemplate "m" deletingFirst) "$0" := ⟨rfl, rfl⟩
  obtain ⟨folded, returns⟩ := @returns_of_isSome _ (expandTemplate (foldWithin 0)
    (bindingTemplate "m" deletingFirst) "m" deletingFirst [identOf "x"]) (by decide +kernel)
  obtain ⟨flags, place, expression, isStatement, isName⟩ :=
    expandTemplate_keeps_name isTemplate inert returns
  exact ⟨folded, flags, place, expression, returns, isStatement, isName⟩

/-- The text that a script of one expression is folded to. -/
def foldedText? (context : Context) (expression : Node) : Option Text :=
  (foldedScript? context expression).bind fun script =>
    (printTree script none none).toOption.map Printed.code

/-- The text of a template with its arguments in place. -/
def substitutedText? (context : Context) (name template : Text) (args : List Node) :
    Option Text :=
  (templateExpression? name template).bind fun expression =>
    foldedText? context (expression.substitute (numbered 0 args))

/-- Two texts that differ refute that a macro is expanded by substitution. -/
theorem not_expandsBySubstitution {template expanded substituted : Text} {args : List Node}
    (isBound : context.macros.lookup name = some (.template template))
    (isExpanded : foldedText? context (callOf name args) = some expanded)
    (isSubstituted : substitutedText? context name template args = some substituted)
    (differ : expanded ≠ substituted) : ¬ ExpandsBySubstitution context name args := by
  intro bySubstitution
  obtain ⟨expression, isTemplate, isSubstituted⟩ := Option.bind_eq_some_iff.mp isSubstituted
  have same := bySubstitution template expression isBound isTemplate
  rw [foldedText?, same] at isExpanded
  rw [foldedText?, isExpanded] at isSubstituted
  exact differ (Option.some.inj isSubstituted)

def callingFirst : Text :=
  "$0(1)"

/-- Two macros of which the second calls the first with one argument. -/
def bindingNested : Context :=
  ⟨Host.none, [], [], [("inner", .template "$0 + $1"), ("outer", .template "inner($0)")], [],
    100⟩

/-- Deleting a placeholder, calling it, and calling a macro with fewer arguments are not
expanded by substitution. -/
theorem templates_not_substituted :
    ¬ ExpandsBySubstitution (bindingTemplate "m" deletingFirst) "m" [identOf "x"] ∧
      ¬ ExpandsBySubstitution (bindingTemplate "m" callingFirst) "m" [identOf "f"] ∧
      ¬ ExpandsBySubstitution bindingNested "outer" [identOf "a", identOf "b"] := by
  refine ⟨?_, ?_, ?_⟩
  · have expanded : foldedText? (bindingTemplate "m" deletingFirst) (callOf "m" [identOf "x"]) =
        some "delete $0;" := by decide +kernel
    have substituted : substitutedText? (bindingTemplate "m" deletingFirst) "m" deletingFirst
        [identOf "x"] = some "delete x;" := by decide +kernel
    exact not_expandsBySubstitution rfl expanded substituted (by decide +kernel)
  · have expanded : foldedText? (bindingTemplate "m" callingFirst) (callOf "m" [identOf "f"]) =
        some "$0(1);" := by decide +kernel
    have substituted : substitutedText? (bindingTemplate "m" callingFirst) "m" callingFirst
        [identOf "f"] = some "f(1);" := by decide +kernel
    exact not_expandsBySubstitution rfl expanded substituted (by decide +kernel)
  · have expanded : foldedText? bindingNested (callOf "outer" [identOf "a", identOf "b"]) =
        some "a + b;" := by decide +kernel
    have substituted : substitutedText? bindingNested "outer" "inner($0)"
        [identOf "a", identOf "b"] = some "a + $1;" := by decide +kernel
    exact not_expandsBySubstitution rfl expanded substituted (by decide +kernel)

end Fold

end ScriptFold
