import ScriptFold.Tree.Basic

/-!
# Spans that nest

The spans of the children of a node lie inside of its own, in order and apart from each other.
There are two exceptions: the key and the target of a shorthand property in a pattern begin at the
same offset, and the words of a meta property are a single leaf whose end is not known.
-/

namespace ScriptFold

/-- Children as they stood, laid one after another from one offset to another. -/
inductive Laid (stop : Nat) : Nat → List FormerChild → Prop
  | nil {start : Nat} : Laid stop start []
  | absent {start : Nat} {rest : List FormerChild} (later : Laid stop start rest) :
      Laid stop start (.absent :: rest)
  | present {start first last : Nat} {rest : List FormerChild} (begins : start ≤ first)
      (proper : first < last) (ends : last ≤ stop) (later : Laid stop last rest) :
      Laid stop start (.present (some first) (some last) :: rest)

namespace Laid

variable {start stop : Nat} {formers others : List FormerChild}

theorem mono {earlier later : Nat} (laid : Laid stop start formers) (begins : earlier ≤ start)
    (ends : stop ≤ later) : Laid later earlier formers := by
  induction laid generalizing earlier with
  | nil => exact .nil
  | absent _ induction => exact .absent (induction begins)
  | present fits proper within _ induction =>
      exact .present (Nat.le_trans begins fits) proper (Nat.le_trans within ends)
        (induction (Nat.le_refl _))

theorem append {middle next : Nat} (laid : Laid middle start formers) (begins : start ≤ next)
    (apart : middle ≤ next) (further : middle ≤ stop) (later : Laid stop next others) :
    Laid stop start (formers ++ others) := by
  induction laid with
  | nil => exact later.mono begins (Nat.le_refl _)
  | absent _ induction => exact .absent (induction begins)
  | present fits proper within _ induction =>
      exact .present fits proper (Nat.le_trans within further)
        (induction (Nat.le_trans within apart))

theorem sublist (laid : Laid stop start formers) (fewer : List.Sublist others formers) :
    Laid stop start others := by
  induction laid generalizing others with
  | nil =>
      rw [List.sublist_nil.mp fewer]
      exact .nil
  | absent _ induction =>
      rcases List.sublist_cons_iff.mp fewer with without | ⟨rest, rfl, less⟩
      · exact induction without
      · exact .absent (induction less)
  | present fits proper within _ induction =>
      rcases List.sublist_cons_iff.mp fewer with without | ⟨rest, rfl, less⟩
      · exact (induction without).mono (Nat.le_trans fits (Nat.le_of_lt proper)) (Nat.le_refl _)
      · exact .present fits proper within (induction less)

/-- A child that is there has a stretch of its own within the bounds. -/
theorem present_of_mem {first last : Option Nat} (laid : Laid stop start formers)
    (there : .present first last ∈ formers) :
    ∃ begins ends, first = some begins ∧ last = some ends ∧ start ≤ begins ∧ begins < ends ∧
      ends ≤ stop := by
  induction laid with
  | nil => cases there
  | absent _ induction => exact induction (by simpa using there)
  | present fits proper within _ induction =>
      rcases List.mem_cons.mp there with same | later
      · cases same
        exact ⟨_, _, rfl, rfl, fits, proper, within⟩
      · obtain ⟨begins, ends, isFirst, isLast, further, some, inside⟩ := induction later
        refine ⟨begins, ends, isFirst, isLast, ?_, some, inside⟩
        exact Nat.le_trans fits (Nat.le_trans (Nat.le_of_lt proper) further)

end Laid

/-- One child ends before another begins. -/
def FormerChild.Before (first second : FormerChild) : Prop :=
  ∀ firstStart stop start secondStop, first = .present firstStart (some stop) →
    second = .present (some start) secondStop → stop ≤ start

theorem Laid.ordered {start stop : Nat} {formers : List FormerChild}
    (laid : Laid stop start formers) : formers.Pairwise FormerChild.Before := by
  induction laid with
  | nil => exact .nil
  | absent _ induction => exact .cons (fun _ _ _ _ _ _ isFirst => nomatch isFirst) induction
  | present _ _ _ later induction =>
      refine .cons (fun second there _ stop start _ isFirst isSecond => ?_) induction
      cases isFirst
      cases isSecond
      obtain ⟨begins, ends, isBegin, _, apart, _⟩ := later.present_of_mem there
      cases isBegin
      exact apart

namespace Node

/-- The key and the target of a shorthand property: the key is a token, and they begin at the same
offset. -/
def Doubled (span : Span) (key target : Node) : Prop :=
  key.isTree = false ∧ ∃ start keyStop targetStop,
    key.toFormer = .present (some start) (some keyStop) ∧
      target.toFormer = .present (some start) (some targetStop) ∧
      span.start ≤ start ∧ start < keyStop ∧ keyStop ≤ span.stop ∧
      start < targetStop ∧ targetStop ≤ span.stop

/-- How the nodes of a tree stand in its span. -/
inductive Arranged (span : Span) : Kind → Flags → List Node → Prop
  | laid {kind : Kind} {flags : Flags} {nodes : List Node}
      (laid : Laid span.stop span.start (nodes.map toFormer)) : Arranged span kind flags nodes
  | shorthand {flags : Flags} {key target : Node} (isShorthand : flags.shorthand = true)
      (doubled : Doubled span key target) : Arranged span .patternProperty flags [key, target]
  | words {flags : Flags} {token : Leaf}
      (former : (Node.leaf token).toFormer = .present (some span.start) none) :
      Arranged span .metaProperty flags [.leaf token]

/-- An identifier of which nothing is written but its name. -/
def IsName (ident : Node) : Prop :=
  ident ≠ .absent ∧ (ident.child 0).toFormer = ident.toFormer ∧ (ident.child 0).isTree = false

/-- All the way down, the children of a tree stand in its span.  A shorthand property of an
object is its name. -/
inductive Nested : Node → Prop
  | absent : Nested .absent
  | leaf {token : Leaf} : Nested (.leaf token)
  | tree {kind : Kind} {flags : Flags} {place : Place} {children : List (Child Node)}
      (arranged : Arranged place.span kind flags (children.map Child.node))
      (named : kind = .shorthandProperty → ∀ child ∈ children, child.node.IsName)
      (deeper : ∀ child ∈ children, child.node.Nested) :
      Nested (.tree kind flags (some place) children)

/-- A child stands inside of the span of its parent, or is not there.  The words of a meta
property begin with it, and nothing is known of their end. -/
def Inside (span : Span) (kind : Kind) (node : Node) : Prop :=
  node = .absent ∨
    (∃ start stop, node.extent = (some start, some stop) ∧ span.start ≤ start ∧ start < stop ∧
      stop ≤ span.stop) ∨
    (kind = .metaProperty ∧ node.isTree = false ∧ node.extent = (some span.start, none))

/-- One node ends before another begins, as far as they have ends. -/
def Before (first second : Node) : Prop :=
  ∀ stop start, first.extent.2 = some stop → second.extent.1 = some start → stop ≤ start

/-- The spans of a tree nest: all the way down, its children stand inside of its span, and in
order and apart unless they are the key and the target of a shorthand property in a pattern. -/
inductive SpansNest : Node → Prop
  | absent : SpansNest .absent
  | leaf {token : Leaf} : SpansNest (.leaf token)
  | tree {kind : Kind} {flags : Flags} {place : Place} {children : List (Child Node)}
      (inside : ∀ child ∈ children, child.node.Inside place.span kind)
      (ordered : (children.map Child.node).Pairwise Before ∨
        kind = .patternProperty ∧ flags.shorthand = true ∧ ∃ key target start,
          children.map Child.node = [key, target] ∧ key.isTree = false ∧
            key.extent.1 = some start ∧ target.extent.1 = some start)
      (deeper : ∀ child ∈ children, child.node.SpansNest) :
      SpansNest (.tree kind flags (some place) children)

theorem toFormer_of_ne {node : Node} (present : node ≠ .absent) :
    node.toFormer = .present node.extent.1 node.extent.2 := by
  cases node with
  | absent => exact absurd rfl present
  | leaf | tree => rfl

theorem extent_of_toFormer {node : Node} {first last : Option Nat}
    (isFormer : node.toFormer = .present first last) : node.extent = (first, last) := by
  cases node with
  | absent => cases isFormer
  | leaf | tree =>
      cases isFormer
      rfl

theorem before_of_former {first second : Node} (before : first.toFormer.Before second.toFormer) :
    first.Before second := by
  intro stop start isStop isStart
  have firstPresent : first ≠ .absent := by
    rintro rfl
    cases isStop
  have secondPresent : second ≠ .absent := by
    rintro rfl
    cases isStart
  refine before first.extent.1 stop start second.extent.2 ?_ ?_
  · rw [toFormer_of_ne firstPresent, isStop]
  · rw [toFormer_of_ne secondPresent, isStart]

theorem inside_of_bounds {span : Span} {kind : Kind} {node : Node} {start stop : Nat}
    (isFormer : node.toFormer = .present (some start) (some stop)) (begins : span.start ≤ start)
    (proper : start < stop) (ends : stop ≤ span.stop) : node.Inside span kind :=
  .inr (.inl ⟨start, stop, extent_of_toFormer isFormer, begins, proper, ends⟩)

private theorem inside_of_laid {span : Span} {kind : Kind} {nodes : List Node}
    (laid : Laid span.stop span.start (nodes.map toFormer)) :
    ∀ node ∈ nodes, node.Inside span kind := by
  intro node there
  by_cases present : node = .absent
  · exact .inl present
  · have isFormer := toFormer_of_ne present
    have among : .present node.extent.1 node.extent.2 ∈ nodes.map toFormer := by
      rw [← isFormer]
      exact List.mem_map_of_mem there
    obtain ⟨start, stop, isStart, isStop, begins, proper, ends⟩ := laid.present_of_mem among
    rw [isStart, isStop] at isFormer
    exact inside_of_bounds isFormer begins proper ends

/-- Nodes that are arranged stand inside of the span. -/
theorem Arranged.inside {span : Span} {kind : Kind} {flags : Flags} {nodes : List Node}
    (arranged : Arranged span kind flags nodes) : ∀ node ∈ nodes, node.Inside span kind := by
  cases arranged with
  | laid laid => exact inside_of_laid laid
  | shorthand _ doubled =>
      obtain ⟨_, start, keyStop, targetStop, isKey, isTarget, begins, keyProper, keyEnds,
        targetProper, targetEnds⟩ := doubled
      rw [List.forall_mem_cons, List.forall_mem_singleton]
      exact ⟨inside_of_bounds isKey begins keyProper keyEnds,
        inside_of_bounds isTarget begins targetProper targetEnds⟩
  | words former =>
      exact List.forall_mem_singleton.mpr (.inr (.inr ⟨rfl, rfl, extent_of_toFormer former⟩))

/-- Nodes that are arranged are in order and apart, unless they belong to a shorthand property. -/
theorem Arranged.ordered {span : Span} {kind : Kind} {flags : Flags} {nodes : List Node}
    (arranged : Arranged span kind flags nodes) : nodes.Pairwise Before ∨
      kind = .patternProperty ∧ flags.shorthand = true ∧ ∃ key target start,
        nodes = [key, target] ∧ key.isTree = false ∧ key.extent.1 = some start ∧
          target.extent.1 = some start := by
  cases arranged with
  | laid laid =>
      have ordered := laid.ordered
      rw [List.pairwise_map] at ordered
      exact .inl (ordered.imp before_of_former)
  | shorthand isShorthand doubled =>
      obtain ⟨isLeaf, start, _, _, isKey, isTarget, _⟩ := doubled
      refine .inr ⟨rfl, isShorthand, _, _, start, rfl, isLeaf, ?_, ?_⟩
      · rw [extent_of_toFormer isKey]
      · rw [extent_of_toFormer isTarget]
  | words => exact .inl (List.pairwise_singleton _ _)

/-- The spans of a nested tree nest. -/
theorem Nested.spansNest {node : Node} (nested : node.Nested) : node.SpansNest := by
  induction nested with
  | absent => exact .absent
  | leaf => exact .leaf
  | tree arranged _ deeper induction =>
      refine .tree (fun child there => ?_) arranged.ordered induction
      exact arranged.inside child.node (List.mem_map_of_mem there)

end Node

end ScriptFold
