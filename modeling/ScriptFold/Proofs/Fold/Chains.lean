import ScriptFold.Fold.Context
import ScriptFold.Proofs.Fold.Depth
import ScriptFold.Proofs.Fold.Substitution
import ScriptFold.Proofs.Reading.Script

/-!
# Chains of macros

In a chain every macro calls the next one with its own argument, and the last one gives its
argument back.  Every macro takes one level of the depth.  An argument goes down the chain as
a placeholder that is bound to a placeholder, and comes up again level by level: the second
fold of each expansion puts in what the placeholder is bound to around it.
-/

namespace ScriptFold

namespace Fold

/-- The name of the first argument in a template. -/
def placeholder : Text :=
  Text.ofString "$0"

/-- A macro that calls the next one with its argument, and so on to one that gives its argument.
None of them is a function as well. -/
inductive IsChain (functions : Table String) (macros : Table MacroBinding) :
    Text → List Text → Prop where
  | last {name : Text} : functions.binds name = false →
      macros.lookup name = some (.template placeholder) → IsChain functions macros name []
  | next {name next : Text} {later : List Text} : functions.binds name = false →
      LexesAs .ident next → macros.lookup name = some (.template (callText next placeholder)) →
      IsChain functions macros next later → IsChain functions macros name (next :: later)

/-- A step gives a value, or is refused because a macro would expand too deep. -/
def Comes {α : Type} (refused : Option Text) (limit : Int) (holds : α → Prop) (step : FoldM α) :
    Prop :=
  match refused with
  | none => ∃ value, step = pure value ∧ holds value
  | some name => ∃ position, step = throw (.fold (.expansionTooDeep name limit) position)

namespace Comes

variable {α β : Type} {refused : Option Text} {limit : Int}

theorem bind {first : FoldM β} {next : β → FoldM α} {middle : β → Prop} {holds : α → Prop}
    (begins : Comes refused limit middle first)
    (goes : ∀ value, middle value → Comes none limit holds (next value)) :
    Comes refused limit holds (first >>= next) := by
  cases refused with
  | none =>
      obtain ⟨value, rfl, isMiddle⟩ := begins
      exact goes value isMiddle
  | some name =>
      obtain ⟨position, rfl⟩ := begins
      exact ⟨position, rfl⟩

theorem locating {step : FoldM α} {holds : α → Prop} (comes : Comes refused limit holds step)
    (node : Node) : Comes refused limit holds (FoldM.locating node step) := by
  cases refused with
  | none =>
      obtain ⟨value, rfl, is⟩ := comes
      exact ⟨value, rfl, is⟩
  | some name =>
      obtain ⟨position, rfl⟩ := comes
      cases position <;> exact ⟨_, rfl⟩

end Comes

/-- What is folded gives an expression, as such or as a statement. -/
inductive GivesExpression (form : Node → Prop) : Folded → Prop where
  | same {node : Node} : form node → GivesExpression form (.same node)
  | instead {node : Node} : form node → GivesExpression form (.instead node)
  | statement {node : Node} : node.IsStatement form → GivesExpression form (.instead node)

/-- What is folded stays a script of one expression. -/
def StaysScript (form : Node → Prop) (folded : Folded) : Prop :=
  ∃ node, folded = .same node ∧ node.IsScript form

section Walk

variable {context : Context} {expand : Expander} {refused : Option Text} {limit : Int}
  {form : Node → Prop} {atom : Atom}

private theorem expressionStatement_comes {walker : Walker} {flags : Flags} {place : Option Place}
    {seat : Option Nat} {inner : Node}
    (comes : Comes refused limit (GivesExpression (Node.IsAtom atom)) (walker.walk inner)) :
    Comes refused limit (fun folded => ∃ node, folded = .same node ∧
        node.IsStatement (Node.IsAtom atom))
      (expressionStatement walker ⟨.exprStmt, flags, place, [⟨seat, inner⟩]⟩) := by
  apply comes.bind
  intro folded gives
  cases gives with
  | same isAtom =>
      cases isAtom
      cases atom <;> exact ⟨_, rfl, _, rfl, .intro .intro⟩
  | instead isAtom =>
      cases isAtom
      cases atom <;> exact ⟨_, rfl, _, rfl, .intro .intro⟩
  | statement isStatement =>
      cases isStatement with
      | intro isAtom => exact ⟨_, rfl, _, rfl, .intro isAtom⟩

/-- A script is folded as its expression is. -/
theorem walk_script
    (comes : ∀ node, form node →
      Comes refused limit (GivesExpression (Node.IsAtom atom)) (walk context expand node))
    {script : Node} (isScript : script.IsScript form) :
    Comes refused limit (StaysScript (Node.IsAtom atom)) (walk context expand script) := by
  obtain @⟨_, _, outer, _, @⟨flags, place, seat, inner, isForm⟩⟩ := isScript
  have statement : Comes refused limit (fun folded => ∃ node, folded = .same node ∧
      node.IsStatement (Node.IsAtom atom))
      (walk context expand (.tree .exprStmt flags place [⟨seat, inner⟩])) := by
    rw [walk_tree]
    exact (expressionStatement_comes (comes inner isForm)).locating _
  rw [walk_tree]
  apply Comes.locating
  have statements : Comes refused limit (fun children => ∃ seat node,
      children = [⟨seat, node⟩] ∧ node.IsStatement (Node.IsAtom atom))
      (Slot.statements ⟨context, expand context, walk context expand⟩
        [⟨outer, .tree .exprStmt flags place [⟨seat, inner⟩]⟩]) := by
    apply statement.bind
    rintro _ ⟨_, rfl, ⟨isAtom⟩⟩
    exact ⟨_, rfl, _, _, rfl, .intro isAtom⟩
  apply statements.bind
  rintro _ ⟨_, _, rfl, isStatement⟩
  exact ⟨_, rfl, _, rfl, .intro isStatement⟩

theorem walk_literal {node : Node} (isAtom : node.IsAtom atom) (isLiteral : atom.isLiteral) :
    walk context expand node = pure (.same node) := by
  cases isAtom
  rw [walk_tree]
  cases atom with
  | name => cases isLiteral
  | literal => rfl
  | regex => rfl

private theorem insertable_atom {node : Node} (isAtom : node.IsAtom atom) :
    Name.insertable node = .ok (.instead node.copy) := by
  cases isAtom with
  | @intro _ place => cases place <;> cases atom <;> rfl

/-- A name that is bound to an expression of one word gives a copy of it. -/
theorem fold_bound {walker : Walker} {branch : Branch} {name : Text} {fragment : Node}
    (named : Name.of? branch.toNode = some name) (inert : Inert walker.context name)
    (bound : walker.context.fragments.lookup name = some fragment)
    (isAtom : fragment.IsAtom atom) :
    Name.fold walker branch = pure (.instead fragment.copy) := by
  simp only [Name.fold, named, Name.refuseCallable, inert.notFunction, inert.notMacro, bound,
    insertable_atom isAtom]
  rfl

private theorem walk_bound {node fragment : Node} {name : Text} (isName : node.IsAtom (.name name))
    (inert : Inert context name) (bound : context.fragments.lookup name = some fragment)
    (isAtom : fragment.IsAtom atom) :
    walk context expand node = pure (.instead fragment.copy) := by
  cases isName with
  | @intro flags place seat found =>
      have folded := @fold_bound atom ⟨context, expand context, walk context expand⟩
        ⟨.ident, flags, place, [⟨seat, .leaf ⟨.name, name, found⟩⟩]⟩ name fragment rfl inert bound
        isAtom
      rw [walk_tree]
      exact congrArg (FoldM.locating _) folded

/-- What an expression of one word comes to: a literal stays, and the placeholder becomes what is
bound to it. -/
inductive Resolves (context : Context) : Atom → Atom → Prop where
  | literal {atom : Atom} : atom.isLiteral → Resolves context atom atom
  | placeholder {fragment : Node} {atom : Atom} :
      context.fragments.lookup placeholder = some fragment → fragment.IsAtom atom →
      Resolves context (.name placeholder) atom

theorem walk_resolves {result : Atom} (inert : Inert context placeholder)
    (resolves : Resolves context atom result) {node : Node} (isAtom : node.IsAtom atom) :
    Comes none limit (GivesExpression (Node.IsAtom result)) (walk context expand node) := by
  cases resolves with
  | literal isLiteral => exact ⟨_, walk_literal isAtom isLiteral, .same isAtom⟩
  | placeholder bound isFragment =>
      exact ⟨_, walk_bound isAtom inert bound isFragment, .instead isFragment.copy⟩

private theorem callee_of_macro {name : Text} {callee : Node} {binding : MacroBinding}
    (isCallee : callee.IsAtom (.name name)) (notFunction : context.functions.binds name = false)
    (isMacro : context.macros.lookup name = some binding) :
    Name.callee context callee = .expansion name := by
  have noFunction : context.functions.lookup name = none := by
    simpa [Table.binds] using notFunction
  have isBound : context.macros.binds name = true := by
    rw [Table.binds, isMacro]
    rfl
  have named : (if callee.isKind .ident then Name.of? callee else none) = some name := by
    cases isCallee
    rfl
  simp only [Name.callee, named, noFunction, isBound, if_true]

/-- A call of a macro is folded as it is expanded. -/
theorem walk_call {name : Text} {argument : Node → Prop} {binding : MacroBinding}
    (notFunction : context.functions.binds name = false)
    (isMacro : context.macros.lookup name = some binding)
    (expands : ∀ call : Branch, call.toNode.IsCall name argument →
      Comes refused limit (GivesExpression form) (expand context call name))
    {node : Node} (isCall : node.IsCall name argument) :
    Comes refused limit (GivesExpression form) (walk context expand node) := by
  obtain ⟨flags, place, callee, rest, rfl, isExpansion⟩ : ∃ flags place callee rest,
      node = .tree .call flags place (callee :: rest) ∧
        Name.callee context callee.node = .expansion name := by
    cases isCall with
    | intro isCallee => exact ⟨_, _, _, _, rfl, callee_of_macro isCallee notFunction isMacro⟩
  have expanded := expands ⟨.call, flags, place, callee :: rest⟩ isCall
  rw [walk_tree]
  apply Comes.locating
  show Comes refused limit _ (Chain.call _ _)
  simpa only [Chain.call, Branch.child, List.getElem?_cons_zero, pure_bind, isExpansion]
    using expanded

end Walk

section Expansion

variable {context : Context} {refused : Option Text} {limit : Int} {atom result : Atom}

theorem foldWithin_resolves (left : Nat) (inert : Inert context placeholder)
    (resolves : Resolves context atom result) {script : Node}
    (isScript : script.IsScript (Node.IsAtom atom)) :
    Comes none limit (StaysScript (Node.IsAtom result)) (foldWithin left context script) := by
  cases left <;> exact walk_script (fun _ isAtom => walk_resolves inert resolves isAtom) isScript

private theorem argumentsOf_call {call : Branch} {name : Text}
    (isCall : call.toNode.IsCall name (Node.IsAtom atom)) :
    ∃ argument, argumentsOf call = pure [argument] ∧ argument.IsAtom atom := by
  obtain ⟨kind, flags, place, children⟩ := call
  cases isCall with
  | intro _ isAtom => exact ⟨_, rfl, isAtom.copy⟩

/-- The context in which the one argument of a template is put in. -/
def binding (context : Context) (argument : Node) : Context :=
  { context with fragments := context.fragments.insertAll (numbered 0 [argument]) }

theorem Inert.binding {name : Text} (inert : Inert context name) (argument : Node) :
    Inert (Fold.binding context argument) name :=
  ⟨inert.notFunction, inert.notMacro⟩

theorem resolves_binding {argument : Node} (isAtom : argument.IsAtom atom) :
    Resolves (binding context argument) (.name placeholder) atom :=
  .placeholder Table.lookup_insert_self isAtom

def templateSource (name template : Text) : Source :=
  ⟨template, some (Text.ofString "<macro " ++ name ++ Text.ofString ">"), .fragment⟩

/-- A template is expanded in two folds: the first puts in the argument, and the second what the
argument stands for around the call. -/
theorem expandTemplate_comes {left : Nat} {name template : Text} {program : Node}
    (isMacro : context.macros.lookup name = some (.template template))
    (parsed : parseScript (templateSource name template) = .ok program)
    (first : ∀ argument, argument.IsAtom atom → Comes refused limit
      (StaysScript (Node.IsAtom atom)) (foldWithin left (binding context argument) program))
    (inert : Inert context placeholder) (resolves : Resolves context atom result) {call : Branch}
    (isCall : call.toNode.IsCall name (Node.IsAtom atom)) :
    Comes refused limit (GivesExpression (Node.IsAtom result))
      (expandWith (foldWithin left) context call name) := by
  obtain ⟨argument, isArgument, isAtom⟩ := argumentsOf_call isCall
  have isParsed : FoldM.parse (templateSource name template) = pure program := by
    rw [FoldM.parse, parsed]
    rfl
  have expanded : expandWith (foldWithin left) context call name = (do
      let folded ← foldWithin left (binding context argument) program
      let again ← foldWithin left context (rootOf program folded)
      return asStatements (rootOf (rootOf program folded) again)) := by
    rw [templateSource] at isParsed
    simp only [expandWith, isMacro, isArgument, pure_bind, expandTemplate, isParsed, binding]
  rw [expanded]
  apply (first argument isAtom).bind
  rintro _ ⟨node, rfl, isScript⟩
  apply (foldWithin_resolves left inert resolves isScript).bind
  rintro _ ⟨_, rfl, ⟨isStatement⟩⟩
  refine ⟨_, rfl, ?_⟩
  cases isStatement with
  | intro isAtom => exact .statement (.intro isAtom)

theorem lexesAs_placeholder : LexesAs .ident placeholder :=
  ⟨_, _, rfl, rfl, rfl⟩

variable {functions : Table String} {macros : Table MacroBinding} {name : Text}
  {later : List Text}

theorem IsChain.head (chain : IsChain functions macros name later) :
    functions.binds name = false ∧ ∃ template, macros.lookup name = some template := by
  cases chain with
  | last notFunction isMacro => exact ⟨notFunction, _, isMacro⟩
  | next notFunction _ isMacro _ => exact ⟨notFunction, _, isMacro⟩

/-- A script that calls a macro is folded as that call is expanded. -/
theorem foldWithin_script {left : Nat}
    (isMacro : context.functions.binds name = false ∧
      ∃ binding, context.macros.lookup name = some binding)
    (expands : ∀ call : Branch, call.toNode.IsCall name (Node.IsAtom atom) →
      Comes refused limit (GivesExpression (Node.IsAtom result))
        (expandWithin left context call name))
    {script : Node} (isScript : script.IsScript (Node.IsCall name (Node.IsAtom atom))) :
    Comes refused limit (StaysScript (Node.IsAtom result)) (foldWithin left context script) := by
  obtain ⟨notFunction, binding, isBound⟩ := isMacro
  rw [foldWithin_eq_walk]
  apply walk_script ?_ isScript
  intro node isCall
  exact walk_call notFunction isBound expands isCall

/-- With a number of expansions left, a chain gives back its argument or is refused at the macro
of that number. -/
theorem expand_chain (chain : IsChain functions macros name later) (left : Nat)
    (inert : Inert context placeholder) (isFunctions : context.functions = functions)
    (isMacros : context.macros = macros) (resolves : Resolves context atom result)
    {call : Branch} (isCall : call.toNode.IsCall name (Node.IsAtom atom)) :
    Comes (name :: later)[left]? context.depthLimit (GivesExpression (Node.IsAtom result))
      (expandWithin left context call name) := by
  induction chain generalizing left context atom result call with
  | @last name _ isMacro =>
      subst isFunctions isMacros
      cases left with
      | zero => exact ⟨_, rfl⟩
      | succ left =>
          obtain ⟨program, parsed, isScript⟩ := @parseScript_name placeholder lexesAs_placeholder
            (templateSource name placeholder) rfl
          apply expandTemplate_comes isMacro parsed ?_ inert resolves isCall
          intro argument isAtom
          exact foldWithin_resolves left (inert.binding argument) (resolves_binding isAtom) isScript
  | @next name next later _ lexes isMacro chain induction =>
      subst isFunctions isMacros
      cases left with
      | zero => exact ⟨_, rfl⟩
      | succ left =>
          obtain ⟨program, parsed, isScript⟩ := @parseScript_call next placeholder lexes
            lexesAs_placeholder (templateSource name (callText next placeholder)) rfl
          apply expandTemplate_comes isMacro parsed ?_ inert resolves isCall
          intro argument isAtom
          refine foldWithin_script ?_ (fun call isCall => ?_) isScript
          · exact chain.head
          · exact induction left (inert.binding argument) rfl rfl (resolves_binding isAtom) isCall

/-- A script that applies a chain of macros to a literal is folded to the literal if the chain
is not longer than the depth limit; otherwise it is refused at the first macro beyond it. -/
theorem program_chain (chain : IsChain context.functions context.macros name later)
    (inert : Inert context placeholder) (within : context.depthLimit ≤ greatestDepthLimit)
    (isLiteral : atom.isLiteral) {script : Node}
    (isScript : script.IsScript (Node.IsCall name (Node.IsAtom atom))) :
    Comes (name :: later)[context.depthLimit.toNat]? context.depthLimit
      (Node.IsScript (Node.IsAtom atom)) (program context script) := by
  have folded := foldWithin_script chain.head (fun call isCall => expand_chain chain
    context.depthLimit.toNat inert rfl rfl (.literal isLiteral) isCall) isScript
  rw [program, if_neg (Int.not_lt.mpr within)]
  apply folded.bind
  rintro _ ⟨node, rfl, isScript⟩
  exact ⟨node, rfl, isScript⟩

end Expansion

end Fold

end ScriptFold
