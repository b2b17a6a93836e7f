import ScriptFold.Fault
import ScriptFold.Grammar.Target
import ScriptFold.Proofs.Reading.AsRead
import ScriptFold.Proofs.Tree.Nesting

/-!
# Targets stand where their expressions stood

An expression that is read again as a target keeps its span, and so do the parts of it that are
kept.  So the spans of the target nest as those of the expression do.
-/

namespace ScriptFold

namespace Node

private theorem mem_seatFrom {child : Child Node} {index : Nat} {nodes : List Node}
    (there : child ∈ seatFrom index nodes) : child.node ∈ nodes := by
  rw [← Grammar.map_node_seatFrom index nodes]
  exact List.mem_map_of_mem there

/-- A tree that is read from nested nodes is nested if they stand in its span. -/
theorem Nested.read {kind : Kind} {flags : Flags} {source : Source} {span : Span}
    {nodes : List Node} (unnamed : kind ≠ .shorthandProperty)
    (arranged : Arranged span kind flags nodes) (all : ∀ node ∈ nodes, node.Nested) :
    (Node.read kind flags source span nodes).Nested := by
  refine .tree ?_ (fun isNamed => absurd isNamed unnamed) fun child there => ?_
  · rw [Grammar.map_node_seatFrom]
    exact arranged
  · exact all child.node (mem_seatFrom there)

/-- A shorthand property of an object stands where its name does. -/
theorem Nested.readName {flags : Flags} {source : Source} {span : Span} {ident : Node}
    (laid : Laid span.stop span.start [ident.toFormer]) (isName : ident.IsName)
    (nested : ident.Nested) :
    (Node.read .shorthandProperty flags source span [ident]).Nested := by
  refine .tree (.laid laid) (fun _ => ?_) ?_
  · exact List.forall_mem_singleton.mpr isName
  · exact List.forall_mem_singleton.mpr nested

theorem Nested.child {node : Node} (nested : node.Nested) (index : Nat) :
    (node.child index).Nested := by
  rw [Node.child, List.getD_eq_getElem?_getD]
  cases found : node.children[index]? with
  | none => exact .absent
  | some inner =>
      have there := List.mem_of_getElem? found
      cases nested with
      | absent | leaf => cases there
      | tree _ _ deeper =>
          obtain ⟨child, isChild, rfl⟩ := List.mem_map.mp there
          exact deeper child isChild

end Node

namespace Grammar

open Node

/-- Nested nodes in place of children. -/
structure Replaces (nodes : List Node) (children : List (Child Node)) : Prop where
  nested : ∀ node ∈ nodes, node.Nested
  formers : nodes.map toFormer = (children.map Child.node).map toFormer

/-- A nested node in place of another. -/
structure StandsFor (target node : Node) : Prop where
  nested : target.Nested
  former : target.toFormer = node.toFormer

namespace Replaces

variable {node : Node} {nodes : List Node} {child : Child Node} {children : List (Child Node)}

theorem nil : Replaces [] [] :=
  ⟨nofun, rfl⟩

theorem cons (first : StandsFor node child.node) (rest : Replaces nodes children) :
    Replaces (node :: nodes) (child :: children) :=
  ⟨List.forall_mem_cons.mpr ⟨first.nested, rest.nested⟩, by
    rw [List.map_cons, first.former, rest.formers]
    rfl⟩

theorem single (first : StandsFor node child.node) : Replaces [node] [child] :=
  .cons first .nil

theorem self (all : ∀ child ∈ children, child.node.Nested) :
    Replaces (children.map Child.node) children := by
  refine ⟨fun node there => ?_, rfl⟩
  obtain ⟨child, isChild, rfl⟩ := List.mem_map.mp there
  exact all child isChild

end Replaces

theorem standsFor_self {node : Node} (nested : node.Nested) : StandsFor node node :=
  ⟨nested, rfl⟩

section

variable {kind other : Kind} {flags : Flags} {place : Option Place}
  {children : List (Child Node)} {nodes : List Node}

theorem laid_of_nested (nested : (Node.tree kind flags place children).Nested)
    (noPattern : kind ≠ .patternProperty) (noMeta : kind ≠ .metaProperty) :
    ∃ known, place = some known ∧
      Laid known.span.stop known.span.start ((children.map Child.node).map toFormer) ∧
      ∀ child ∈ children, child.node.Nested := by
  cases nested with
  | tree arranged _ deeper =>
      generalize children.map Child.node = nodes at arranged
      cases arranged with
      | laid laid => exact ⟨_, rfl, laid, deeper⟩
      | shorthand => exact absurd rfl noPattern
      | words => exact absurd rfl noMeta

/-- A tree keeps its span with others in place of its children, or of some of them. -/
theorem reshape_standsFor {kept : List (Child Node)}
    (nested : (Node.tree kind flags place children).Nested)
    (fewer : List.Sublist kept children) (replaces : Replaces nodes kept)
    (noPattern : kind ≠ .patternProperty) (noMeta : kind ≠ .metaProperty)
    (unnamed : other ≠ .shorthandProperty) :
    StandsFor (reshape (.tree kind flags place children) other nodes)
      (.tree kind flags place children) := by
  obtain ⟨known, rfl, laid, _⟩ := laid_of_nested nested noPattern noMeta
  refine ⟨.read unnamed (.laid ?_) replaces.nested, rfl⟩
  rw [replaces.formers]
  exact laid.sublist ((fewer.map _).map _)

/-- A spread becomes a rest element. -/
theorem rest_standsFor {seat : Option Nat} {value inner : Node}
    (nested : (Node.tree .spread flags place [⟨seat, value⟩]).Nested)
    (innerIs : StandsFor inner value) :
    StandsFor (reshape (.tree .spread flags place [⟨seat, value⟩]) .rest [inner])
      (.tree .spread flags place [⟨seat, value⟩]) :=
  reshape_standsFor nested (.refl _) (.single innerIs) nofun nofun nofun

/-- The name of a shorthand property is both its key and its target. -/
theorem shorthandTarget_standsFor {seat : Option Nat} {ident : Node}
    (nested : (Node.tree .shorthandProperty flags place [⟨seat, ident⟩]).Nested) :
    StandsFor
      (shorthandTarget (.tree .shorthandProperty flags place [⟨seat, ident⟩]) ident (ident.child 0))
      (.tree .shorthandProperty flags place [⟨seat, ident⟩]) := by
  obtain ⟨known, rfl, laid, deeper⟩ := laid_of_nested nested nofun nofun
  have identNested : ident.Nested := deeper ⟨seat, ident⟩ List.mem_cons_self
  have whole := identNested
  cases nested with
  | tree _ named _ =>
      obtain ⟨present, isName, isLeaf⟩ := named rfl ⟨seat, ident⟩ List.mem_cons_self
      cases identNested with
      | absent => exact absurd rfl present
      | leaf => cases isName
      | @tree kind identFlags identPlace children =>
          obtain ⟨_, _, isFirst, isLast, begins, proper, ends⟩ :=
            laid.present_of_mem List.mem_cons_self
          cases isFirst
          cases isLast
          have nameNested := whole.child 0
          dsimp only at isName isLeaf
          generalize Node.child (.tree kind identFlags (some identPlace) children) 0 = name
            at isName isLeaf nameNested
          have target : (reshape (.tree kind identFlags (some identPlace) children) .binding
              [name]).Nested := by
            refine .read nofun (.laid ?_) (List.forall_mem_singleton.mpr nameNested)
            rw [List.map_singleton, isName]
            exact .present (Nat.le_refl _) proper (Nat.le_refl _) .nil
          refine ⟨.tree (.shorthand rfl ⟨isLeaf, ?_⟩) nofun ?_, rfl⟩
          · exact ⟨_, _, _, isName, rfl, begins, proper, ends, proper, ends⟩
          · exact List.forall_mem_cons.mpr ⟨nameNested, List.forall_mem_singleton.mpr target⟩

end

/-- A target stands where its expression stands. -/
theorem toTarget_standsFor (nested : Bool) (node : Node) :
    node.Nested → ∀ target, toTarget nested node = .ok target → StandsFor target node := by
  refine toTarget.induct
    (fun nested node => node.Nested → ∀ target, toTarget nested node = .ok target →
      StandsFor target node)
    (fun elements => (∀ child ∈ elements, child.node.Nested) →
      ∀ nodes, toElements elements = .ok nodes → Replaces nodes elements)
    (fun members => (∀ child ∈ members, child.node.Nested) →
      ∀ nodes, toProperties members = .ok nodes → Replaces nodes members)
    ?object ?array ?default ?assign ?ident ?other ?noElements ?spreadElement ?element
    ?noProperties ?property ?shorthand ?spread ?refused nested node
  case object | array =>
    intro nested flags place inner induction isNested target equality
    rw [toTarget] at equality
    obtain ⟨nodes, areNodes, equality⟩ := Calculation.of_bind_eq_ok equality
    cases equality
    obtain ⟨_, _, _, deeper⟩ := laid_of_nested isNested (by decide) (by decide)
    exact reshape_standsFor isNested (.refl _) (induction deeper nodes areNodes) (by decide)
      (by decide) (by decide)
  case default =>
    intro nested flags place s target t op u value isDefault induction isNested result equality
    simp only [toTarget, isDefault, if_true] at equality
    obtain ⟨inner, isInner, equality⟩ := Calculation.of_bind_eq_ok equality
    cases equality
    obtain ⟨_, _, _, deeper⟩ := laid_of_nested isNested (by decide) (by decide)
    have innerIs := induction (deeper ⟨s, target⟩ (by simp)) inner isInner
    have valueIs : StandsFor value value := standsFor_self (deeper ⟨u, value⟩ (by simp))
    have kept : Replaces [inner, value] [⟨s, target⟩, ⟨u, value⟩] := .cons innerIs (.single valueIs)
    exact reshape_standsFor isNested (.cons_cons _ (.cons _ (.refl _))) kept (by decide) (by decide)
      (by decide)
  case assign =>
    intro nested flags place s target t op u value notDefault isNested result equality
    simp only [toTarget, notDefault] at equality
    cases equality
    exact standsFor_self isNested
  case ident =>
    intro nested flags place children isNested target equality
    cases nested with
    | true =>
        cases equality
        obtain ⟨_, _, _, deeper⟩ := laid_of_nested isNested (by decide) (by decide)
        exact reshape_standsFor isNested (.refl _) (.self deeper) (by decide) (by decide)
          (by decide)
    | false =>
        cases equality
        exact standsFor_self isNested
  case other =>
    intro nested node notObject notArray notAssign notIdent isNested target equality
    rw [toTarget] at equality
    · cases equality
      exact standsFor_self isNested
    all_goals assumption
  case noElements | noProperties =>
    intro all nodes equality
    cases equality
    exact .nil
  case spreadElement =>
    intro seat flags place s value rest valueInduction restInduction all nodes equality
    rw [toElements] at equality
    obtain ⟨inner, isInner, equality⟩ := Calculation.of_bind_eq_ok equality
    obtain ⟨others, areOthers, equality⟩ := Calculation.of_bind_eq_ok equality
    cases equality
    obtain ⟨spreadNested, restNested⟩ := List.forall_mem_cons.mp all
    obtain ⟨_, _, _, deeper⟩ := laid_of_nested spreadNested (by decide) (by decide)
    have innerIs := valueInduction (deeper ⟨s, value⟩ (by simp)) inner isInner
    exact .cons (rest_standsFor spreadNested innerIs) (restInduction restNested others areOthers)
  case element =>
    intro seat node rest notSpread nodeInduction restInduction all nodes equality
    rw [toElements] at equality
    · obtain ⟨first, isFirst, equality⟩ := Calculation.of_bind_eq_ok equality
      obtain ⟨others, areOthers, equality⟩ := Calculation.of_bind_eq_ok equality
      cases equality
      obtain ⟨nodeNested, restNested⟩ := List.forall_mem_cons.mp all
      exact .cons (nodeInduction nodeNested first isFirst)
        (restInduction restNested others areOthers)
    all_goals assumption
  case property =>
    intro seat flags place s key t value rest valueInduction restInduction all nodes equality
    rw [toProperties] at equality
    obtain ⟨inner, isInner, equality⟩ := Calculation.of_bind_eq_ok equality
    obtain ⟨others, areOthers, equality⟩ := Calculation.of_bind_eq_ok equality
    cases equality
    obtain ⟨propertyNested, restNested⟩ := List.forall_mem_cons.mp all
    obtain ⟨_, _, _, deeper⟩ := laid_of_nested propertyNested (by decide) (by decide)
    have keyIs : StandsFor key key := standsFor_self (deeper ⟨s, key⟩ (by simp))
    have innerIs := valueInduction (deeper ⟨t, value⟩ (by simp)) inner isInner
    have both : Replaces [key, inner] [⟨s, key⟩, ⟨t, value⟩] := .cons keyIs (.single innerIs)
    exact .cons (reshape_standsFor propertyNested (.refl _) both (by decide) (by decide)
      (by decide))
      (restInduction restNested others areOthers)
  case shorthand =>
    intro seat flags place s ident rest restInduction all nodes equality
    rw [toProperties] at equality
    obtain ⟨others, areOthers, equality⟩ := Calculation.of_bind_eq_ok equality
    cases equality
    obtain ⟨propertyNested, restNested⟩ := List.forall_mem_cons.mp all
    exact .cons (shorthandTarget_standsFor propertyNested)
      (restInduction restNested others areOthers)
  case spread =>
    intro seat flags place s value rest valueInduction restInduction all nodes equality
    rw [toProperties] at equality
    obtain ⟨inner, isInner, equality⟩ := Calculation.of_bind_eq_ok equality
    obtain ⟨others, areOthers, equality⟩ := Calculation.of_bind_eq_ok equality
    cases equality
    obtain ⟨spreadNested, restNested⟩ := List.forall_mem_cons.mp all
    obtain ⟨_, _, _, deeper⟩ := laid_of_nested spreadNested (by decide) (by decide)
    have innerIs := valueInduction (deeper ⟨s, value⟩ (by simp)) inner isInner
    exact .cons (rest_standsFor spreadNested innerIs) (restInduction restNested others areOthers)
  case refused =>
    intro head tail notProperty notShorthand notSpread all nodes equality
    rw [toProperties] at equality
    · cases equality
    all_goals assumption

end Grammar

end ScriptFold
