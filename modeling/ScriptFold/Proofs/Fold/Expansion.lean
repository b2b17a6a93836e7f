import ScriptFold.Host.Stock
import ScriptFold.Proofs.Fold.Chains

/-!
# Macros stop expanding

However macros call each other and themselves, folding ends: it goes down the depths of
expansion, and at each depth down the trees.  No macro expands beyond the depth limit, and a
chain of macros can be as long as the limit.
-/

namespace ScriptFold

namespace Fold

/-- Folding goes from a node at a depth only to nodes before it, and these do not descend
forever.  There is one way to fold like this. -/
structure EndsWithin (limit : Nat) : Prop where
  founded : WellFounded (Before limit)
  goesBefore : ∀ (refuse : Expander) (fold other : DepthFold) (depth : Nat) (context : Context)
    (node : Node), (∀ pair, Before limit pair (depth, node) → ∀ context,
      fold pair.1 context pair.2 = other pair.1 context pair.2) →
    round limit refuse fold depth context node = round limit refuse other depth context node
  goesByRounds : GoesByRounds limit tooDeep fun depth => foldWithin (limit - depth)
  unique : ∀ fold, GoesByRounds limit tooDeep fold → ∀ depth, depth ≤ limit →
    ∀ context node, fold depth context node = foldWithin (limit - depth) context node

theorem endsWithin (limit : Nat) : EndsWithin limit := by
  have goes : GoesByRounds limit tooDeep fun depth => foldWithin (limit - depth) := by
    have byRounds := foldBy_goesByRounds limit tooDeep
    simpa only [foldBy_tooDeep] using byRounds
  refine ⟨before_wellFounded limit, ?_, goes, ?_⟩
  · intro refuse fold other depth context node same
    exact round_congr context same
  · intro fold otherGoes depth within context node
    exact otherGoes.unique goes within context node

/-- Fold a program with something else done where a macro would expand beyond the limit. -/
def programBy (refuse : Expander) (context : Context) (node : Node) : FoldM Node := do
  match ← foldBy refuse context.depthLimit.toNat context node with
  | .same folded => return folded
  | _ => throw (.fault .rootReplaced)

private theorem program_eq_programBy {context : Context}
    (within : context.depthLimit ≤ greatestDepthLimit) (node : Node) :
    program context node = programBy tooDeep context node := by
  unfold program programBy
  rw [if_neg (Int.not_lt.mpr within)]
  generalize same : foldBy tooDeep context.depthLimit.toNat = fold
  obtain rfl : fold = foldWithin _ := same.symm.trans (foldBy_tooDeep _)
  rfl

private theorem programBy_alike (refuse : Expander) (context : Context) (node : Node) :
    (unlessTooDeep context.depthLimit).alike (programBy tooDeep context node)
      (programBy refuse context node) (fun _ => True) := by
  apply (unlessTooDeep context.depthLimit).bind (foldBy_alike refuse _ context node)
  intro folded _
  apply (unlessTooDeep context.depthLimit).weaken ((unlessTooDeep context.depthLimit).refl _)
  exact fun _ _ => trivial

/-- For every limit that can be counted, folding ends, and whatever would be done where a macro
would expand beyond the limit, a program is folded the same or refused as expanding too deep.  A
chain of macros gives back the literal that it is applied to if it is not longer than the limit,
and is refused otherwise. -/
theorem expansion_ends (context : Context) (within : context.depthLimit ≤ greatestDepthLimit) :
    EndsWithin context.depthLimit.toNat ∧
    (∀ refuse node before,
      (program context node).run.run before = (programBy refuse context node).run.run before ∨
        FailsTooDeep context.depthLimit (program context node) before) ∧
    ∀ name later atom script, IsChain context.functions context.macros name later →
      Inert context placeholder → atom.isLiteral →
      script.IsScript (Node.IsCall name (Node.IsAtom atom)) →
      (later.length + 1 ≤ context.depthLimit →
        ∃ result, program context script = pure result ∧ result.IsScript (Node.IsAtom atom)) ∧
      (context.depthLimit < later.length + 1 →
        ∃ refused position, program context script =
          throw (.fold (.expansionTooDeep refused context.depthLimit) position)) := by
  refine ⟨endsWithin _, ?_, ?_⟩
  · intro refuse node before
    rw [program_eq_programBy within]
    exact ((programBy_alike refuse context node).1 before).imp_right failsTooDeep_of_failure
  · intro name later atom script chain inert isLiteral isScript
    have comes := program_chain chain inert within isLiteral isScript
    constructor
    · intro short
      have none : (name :: later)[context.depthLimit.toNat]? = none := by
        rw [List.getElem?_eq_none_iff, List.length_cons]
        omega
      rwa [none] at comes
    · intro long
      have there : context.depthLimit.toNat < (name :: later).length := by
        rw [List.length_cons]
        omega
      rw [List.getElem?_eq_getElem there] at comes
      exact ⟨_, comes⟩

def twoMacros (limit : Int) : Context :=
  ⟨Host.none, [], [],
    [("m", .template (callText "n" placeholder)), ("n", .template placeholder)], [], limit⟩

/-- A script that calls the first of them. -/
def scriptOfFive : Node :=
  scriptOf (callOf "m" [.made .literal [.word .number "5"]])

theorem twoMacros_expanded :
    (∃ result, program (twoMacros 2) scriptOfFive = pure result ∧
      result.IsScript (Node.IsAtom (.literal .number "5"))) ∧
    ∃ refused position, program (twoMacros 1) scriptOfFive =
      throw (.fold (.expansionTooDeep refused 1) position) := by
  have chain : IsChain [] (twoMacros 2).macros "m" ["n"] :=
    .next rfl ⟨_, _, rfl, rfl, rfl⟩ rfl (.last rfl rfl)
  have isScript : scriptOfFive.IsScript (Node.IsCall "m" (Node.IsAtom (.literal .number "5"))) :=
    .intro (.intro (.intro .intro .intro))
  constructor
  · have ends := (expansion_ends (twoMacros 2) (by decide)).2.2
    exact (ends "m" ["n"] _ _ chain ⟨rfl, rfl⟩ rfl isScript).1 (by decide)
  · have ends := (expansion_ends (twoMacros 1) (by decide)).2.2
    exact (ends "m" ["n"] _ _ chain ⟨rfl, rfl⟩ rfl isScript).2 (by decide)

/-- The text of a script that calls a macro which gives back its argument, five. -/
def givenBack? (functions : Table String) (macros : Table MacroBinding) (limit : Int) :
    Option Text :=
  (evaluate stockHost { functions, macros := ("m", .template placeholder) :: macros }
    { depthLimit := limit } "m(5)").result.toOption.map Printed.code

/-- A macro does not give back its argument if it is a function as well, if the placeholder is
one or is a macro, or if the limit is beyond the greatest one. -/
theorem not_givenBack :
    givenBack? [] [] 100 = some "5" ∧ givenBack? [("m", "count")] [] 100 = some "1" ∧
      givenBack? [("$0", "count")] [] 100 = none ∧
      givenBack? [] [("$0", .template "1")] 100 = none ∧
      givenBack? [] [] 100000000000 = none := by
  decide +kernel

end Fold

end ScriptFold
