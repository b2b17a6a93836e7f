import ScriptFold.Evaluate
import ScriptFold.Proofs.Coupling.Walk
import ScriptFold.Proofs.Reading.Placing

/-!
# Folding keeps places

Folding makes nodes without places, copies nodes with theirs, and reads templates and given
fragments, so it adds no places of a script to those that are there.  A folded program keeps
its own place.
-/

namespace ScriptFold

namespace Fold

variable {fits : Place → Prop} {context : Context}

def AreTemplates (macros : Table MacroBinding) : Prop :=
  ∀ entry, entry ∈ macros → ∃ template, entry.2 = .template template

/-- Every place in a fragment is as wanted. -/
def AdmitsFragments (fits : Place → Prop) : Prop :=
  ∀ place, place.source.role = .fragment → fits place

theorem AdmitsFragments.reads (admits : AdmitsFragments fits) {source : Source} {tree : Node}
    (isFragment : source.role = .fragment) (parsed : parseScript source = .ok tree) :
    tree.Placed fits := by
  apply (parseScript_source parsed).mono
  intro place isSource
  apply admits
  rw [isSource]
  exact isFragment

/-- Folding with templates keeps places as wanted. -/
theorem foldWithin_placed (admits : AdmitsFragments fits) (templates : AreTemplates context.macros)
    (fragments : ∀ entry, entry ∈ context.fragments → entry.2.Placed fits) (left : Nat)
    {node : Node} (placed : node.Placed fits) :
    Likeness.equality.alike (foldWithin left context node) (foldWithin left context node)
      (Folded.Placed fits) := by
  induction left generalizing context node with
  | zero =>
      apply walkAt_alike fragments _ (Nat.le_refl _) ⟨placed, Nat.le_refl _⟩
      exact fun call name _ => Likeness.equality.of_fail
  | succ left induction =>
      apply walkAt_alike fragments _ (Nat.le_refl _) ⟨placed, Nat.le_refl _⟩
      intro call name callIs
      apply expandWith_alike _ fragments _ _ callIs
      · intro others othersAre node nodeIs
        have sameMacros : AreTemplates { context with fragments := others }.macros := templates
        exact induction sameMacros othersAre nodeIs
      · exact fun source tree isFragment parsed => admits.reads isFragment parsed
      · intro entry there hostName isHost
        obtain ⟨template, isTemplate⟩ := templates entry there
        rw [isTemplate] at isHost
        cases isHost

/-- What is folded on the stack that is set aside for it is folded. -/
theorem returns_of_programOnStack {node tree : Node}
    (returns : FoldM.Returns (programOnStack context node) tree) :
    FoldM.Returns (program context node) tree := by
  unfold programOnStack at returns
  split at returns
  · exact returns
  · exact absurd returns FoldM.not_returns_throw

/-- A program that is folded stays the same node. -/
theorem returns_of_program {node tree : Node} (returns : FoldM.Returns (program context node) tree) :
    FoldM.Returns (foldWithin context.depthLimit.toNat context node) (.same tree) := by
  unfold program at returns
  split at returns
  case isTrue => exact absurd returns FoldM.not_returns_throw
  case isFalse =>
    obtain ⟨folded, walked, returns⟩ := returns.of_bind
    cases folded with
    | same node =>
        cases returns.eq_of_pure
        exact walked
    | «instead» | statements | removed => exact absurd returns FoldM.not_returns_throw

theorem program_placed (admits : AdmitsFragments fits) (templates : AreTemplates context.macros)
    (fragments : ∀ entry, entry ∈ context.fragments → entry.2.Placed fits) {node tree : Node}
    (placed : node.Placed fits) (returns : FoldM.Returns (program context node) tree) :
    tree.Placed fits :=
  (foldWithin_placed admits templates fragments _ placed).2 _ (returns_of_program returns)

/-- A program that is folded keeps its place, and an empty one stays empty. -/
theorem program_place {flags : Flags} {place : Option Place} {children : List (Child Node)}
    {tree : Node}
    (returns : FoldM.Returns (program context (.tree .program flags place children)) tree) :
    ∃ others, tree = .tree .program flags place others ∧ (children = [] → others = []) := by
  have walks : ∃ expand, FoldM.Returns
      (walk context expand (.tree .program flags place children)) (.same tree) := by
    have walked := returns_of_program returns
    cases left : context.depthLimit.toNat with
    | zero => exact ⟨_, left ▸ walked⟩
    | succ left' => exact ⟨_, left ▸ walked⟩
  obtain ⟨expand, walked⟩ := walks
  rw [walk_tree] at walked
  obtain ⟨others, folded, kept⟩ := walked.of_locating.of_bind
  cases kept.eq_of_pure
  refine ⟨others, rfl, ?_⟩
  rintro rfl
  exact folded.eq_of_pure

end Fold

namespace Evaluate

open Fold

variable {fits : Place → Prop} {host : Host} {depthLimit : Int}

theorem parsed_of_returns {source : Source} {tree : Node}
    (returns : FoldM.Returns (FoldM.parse source) tree) : parseScript source = .ok tree :=
  Likeness.equality.of_parse.2 tree returns

/-- A given fragment is read as a fragment, and folded without macros. -/
theorem prepareText_placed (admits : AdmitsFragments fits) {name text : Text} {node : Node}
    (returns : FoldM.Returns (prepareText host depthLimit name text) node) : node.Placed fits := by
  obtain ⟨tree, parsed, returns⟩ := returns.of_bind
  have placed : tree.Placed fits := admits.reads rfl (parsed_of_returns parsed)
  apply program_placed admits _ _ placed (returns_of_programOnStack returns)
  · simp [AreTemplates]
  · simp

private theorem prepareAll_placed (admits : AdmitsFragments fits) {given : Table FragmentBinding}
    (texts : ∀ entry, entry ∈ given → ∃ text, entry.2 = .text text) {table : Table Node}
    (returns : FoldM.Returns (prepareAll host depthLimit given) table) :
    ∀ entry, entry ∈ table → entry.2.Placed fits := by
  induction given generalizing table with
  | nil =>
      cases returns.eq_of_pure
      simp
  | cons first rest induction =>
      obtain ⟨name, binding⟩ := first
      rw [List.forall_mem_cons] at texts
      obtain ⟨⟨text, isText⟩, restAre⟩ := texts
      obtain rfl : binding = .text text := isText
      obtain ⟨node, prepared, returns⟩ := returns.of_bind
      obtain ⟨others, preparedOthers, returns⟩ := returns.of_bind
      cases returns.eq_of_pure
      rw [List.forall_mem_cons]
      exact ⟨prepareText_placed admits prepared, induction restAre preparedOthers⟩

/-- A script that is read and folded: its places are as those of the script and of fragments,
and it is still a program at its place. -/
theorem tree_placed (admits : AdmitsFragments fits) {bindings : Bindings}
    (templates : AreTemplates bindings.macros)
    (texts : ∀ entry, entry ∈ bindings.fragments → ∃ text, entry.2 = .text text)
    {source : Source} {tree : Node}
    (script : ∀ script, parseScript source = .ok script → script.Placed fits)
    (returns : FoldM.Returns (Evaluate.tree host bindings depthLimit source) tree) :
    tree.Placed fits := by
  obtain ⟨context, prepared, returns⟩ := returns.of_bind
  obtain ⟨program, parsed, returns⟩ := returns.of_bind
  obtain ⟨fragments, preparedAll, prepared⟩ := prepared.of_bind
  cases prepared.eq_of_pure
  have isScript := script program (parsed_of_returns parsed)
  exact program_placed admits templates (prepareAll_placed admits texts preparedAll) isScript
    (returns_of_programOnStack returns)

/-- What a script is folded to keeps the place of the script. -/
theorem tree_source {bindings : Bindings} {source : Source} {tree : Node}
    (returns : FoldM.Returns (Evaluate.tree host bindings depthLimit source) tree) :
    tree.place?.map Place.source = some source := by
  obtain ⟨context, prepared, returns⟩ := returns.of_bind
  obtain ⟨program, parsed, returns⟩ := returns.of_bind
  obtain ⟨statements, rfl, _⟩ := parseScript_statements (parsed_of_returns parsed)
  obtain ⟨others, rfl, _⟩ := program_place (returns_of_programOnStack returns)
  rfl

/-- An empty script stays empty. -/
theorem tree_empty {bindings : Bindings} {sourceName : Option Text} {tree : Node}
    (returns : FoldM.Returns
      (Evaluate.tree host bindings depthLimit ⟨[], sourceName, .script⟩) tree) :
    tree = Grammar.program ⟨[], sourceName, .script⟩ [] := by
  obtain ⟨context, prepared, returns⟩ := returns.of_bind
  obtain ⟨program, parsed, returns⟩ := returns.of_bind
  cases parsed_of_returns parsed
  obtain ⟨others, rfl, isEmpty⟩ := program_place (returns_of_programOnStack returns)
  rw [isEmpty rfl]
  rfl

end Evaluate

end ScriptFold
