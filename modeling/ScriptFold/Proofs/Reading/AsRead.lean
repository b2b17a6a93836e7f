import ScriptFold.Fault
import ScriptFold.Grammar.Target
import ScriptFold.Proofs.Reading.Leads

/-!
# Trees as they are read

A tree as readers build it: every child sits in its own seat, all the way down, also
where an expression was taken for a target after all.  Such a tree is clean.
-/

namespace ScriptFold

namespace Grammar

/-- A tree as it is read.  The name of a shorthand property is a tree of its own, from
which the target of a pattern takes its place. -/
inductive AsRead : Node → Prop where
  | absent : AsRead .absent
  | leaf {token : Leaf} : AsRead (.leaf token)
  | read {kind : Kind} {flags : Flags} {source : Source} {span : Span} {children : List Node}
      (childrenAre : ∀ child, child ∈ children → AsRead child)
      (named : kind = .shorthandProperty → ∀ child, child ∈ children → child.isTree = true) :
      AsRead (.read kind flags source span children)

theorem areClean_seatFrom {children : List Node}
    (clean : ∀ child, child ∈ children → child.isClean = true) (index : Nat) :
    Node.areClean index (children.map Node.toFormer) (Node.seatFrom index children) = true := by
  induction children generalizing index with
  | nil => rfl
  | cons child rest induction =>
      have childClean := clean child List.mem_cons_self
      have restClean := induction
        (fun other there => clean other (List.mem_cons_of_mem _ there)) (index + 1)
      rw [List.map_cons, Node.seatFrom]
      cases child <;> simp [Node.toFormer, Node.areClean, childClean, restClean]

theorem length_seatFrom (index : Nat) (nodes : List Node) :
    (Node.seatFrom index nodes).length = nodes.length := by
  induction nodes generalizing index with
  | nil => rfl
  | cons node rest induction => rw [Node.seatFrom, List.length_cons, induction, List.length_cons]

theorem getElem?_seatFrom (start : Nat) (nodes : List Node) (index : Nat) :
    (Node.seatFrom start nodes)[index]? = nodes[index]?.map (⟨some (start + index), ·⟩) := by
  induction nodes generalizing start index with
  | nil => rfl
  | cons node rest induction =>
      cases index with
      | zero => rfl
      | succ index =>
          rw [Node.seatFrom, List.getElem?_cons_succ, induction, List.getElem?_cons_succ]
          rw [Nat.add_right_comm, Nat.add_assoc]

/-- A tree as it is read is clean. -/
theorem AsRead.isClean {node : Node} (asRead : AsRead node) : node.isClean = true := by
  induction asRead with
  | absent | leaf => rfl
  | @read kind flags source span children childrenAre named induction =>
      rw [Node.read, Node.isClean, areClean_seatFrom induction, length_seatFrom, List.length_map]
      simp

theorem map_node_seatFrom (index : Nat) (nodes : List Node) :
    (Node.seatFrom index nodes).map Child.node = nodes := by
  induction nodes generalizing index with
  | nil => rfl
  | cons node rest induction => rw [Node.seatFrom, List.map_cons, induction]

/-- The parts of a tree as it is read. -/
theorem AsRead.parts {kind : Kind} {flags : Flags} {place : Option Place}
    {children : List (Child Node)} (asRead : AsRead (.tree kind flags place children)) :
    (∃ known, place = some known) ∧
      (∀ child, child ∈ children → AsRead child.node) ∧
      (kind = .shorthandProperty → ∀ child, child ∈ children → child.node.isTree = true) := by
  generalize isNode : Node.tree kind flags place children = node at asRead
  cases asRead with
  | absent | leaf => cases isNode
  | @read kind flags source span nodes childrenAre named =>
      cases isNode
      have isChild : ∀ child, child ∈ Node.seatFrom 0 nodes → child.node ∈ nodes := by
        intro child there
        rw [← map_node_seatFrom 0 nodes]
        exact List.mem_map_of_mem there
      exact ⟨⟨_, rfl⟩, fun child there => childrenAre _ (isChild child there),
        fun isShorthand child there => named isShorthand _ (isChild child there)⟩

theorem AsRead.children {node : Node} (asRead : AsRead node) : All AsRead node.children := by
  cases asRead with
  | absent | leaf => exact .nil
  | @read kind flags source span nodes childrenAre named =>
      rw [Node.children, Node.read, Node.seated, map_node_seatFrom]
      exact childrenAre

/-- A tree that takes the place of another one. -/
theorem AsRead.reshape {node : Node} {kind : Kind} {children : List Node}
    (asRead : AsRead node) (isTree : node.isTree = true) (notShorthand : kind ≠ .shorthandProperty)
    (childrenAre : All AsRead children) : AsRead (reshape node kind children) := by
  cases asRead with
  | absent | leaf => cases isTree
  | read => exact .read childrenAre fun isShorthand => absurd isShorthand notShorthand

/-- Trees that readers build are as they are read. -/
theorem finishWith_asRead {flags : Flags} {kind : Kind} {children : List Node} {start : Token}
    (notShorthand : kind ≠ .shorthandProperty) (childrenAre : All AsRead children) :
    Yields (finishWith flags kind children start) AsRead :=
  .after fun _ => .of_pure (.read childrenAre fun isShorthand => absurd isShorthand notShorthand)

theorem finish_asRead {kind : Kind} {children : List Node} {start : Token}
    (notShorthand : kind ≠ .shorthandProperty) (childrenAre : All AsRead children) :
    Yields (finish kind children start) AsRead :=
  finishWith_asRead notShorthand childrenAre

/-- The children of a node as they are read. -/
def ChildrenAsRead (children : List (Child Node)) : Prop :=
  ∀ child, child ∈ children → AsRead child.node

theorem ChildrenAsRead.head {seat : Option Nat} {node : Node} {rest : List (Child Node)}
    (childrenAre : ChildrenAsRead (⟨seat, node⟩ :: rest)) : AsRead node :=
  childrenAre _ List.mem_cons_self

theorem ChildrenAsRead.tail {child : Child Node} {rest : List (Child Node)}
    (childrenAre : ChildrenAsRead (child :: rest)) : ChildrenAsRead rest :=
  fun other there => childrenAre other (List.mem_cons_of_mem _ there)

/-- A shorthand property as a target. -/
theorem shorthandTarget_asRead {flags : Flags} {place : Option Place} {seat : Option Nat}
    {ident : Node}
    (property : AsRead (.tree .shorthandProperty flags place [⟨seat, ident⟩])) :
    AsRead (shorthandTarget (.tree .shorthandProperty flags place [⟨seat, ident⟩]) ident
      (ident.child 0)) := by
  obtain ⟨⟨known, rfl⟩, childrenAre, named⟩ := property.parts
  have identIs : AsRead ident := childrenAre _ List.mem_cons_self
  have isTree : ident.isTree = true := named rfl _ List.mem_cons_self
  have nameIs : AsRead (ident.child 0) := by
    rw [Node.child, List.getD_eq_getElem?_getD]
    cases found : ident.children[0]? with
    | none => exact .absent
    | some name => exact identIs.children name (List.mem_of_getElem? found)
  have target : AsRead (reshape ident .binding [ident.child 0]) :=
    identIs.reshape isTree nofun (All.cons nameIs .nil)
  exact .read (All.cons nameIs (.cons target .nil)) nofun

/-- A target is as it is read, if the expression is. -/
theorem toTarget_asRead (nested : Bool) (node : Node) :
    AsRead node → ∀ target, toTarget nested node = .ok target → AsRead target := by
  refine toTarget.induct
    (fun nested node => AsRead node → ∀ target, toTarget nested node = .ok target →
      AsRead target)
    (fun elements => ChildrenAsRead elements → ∀ nodes, toElements elements = .ok nodes →
      All AsRead nodes)
    (fun members => ChildrenAsRead members → ∀ nodes, toProperties members = .ok nodes →
      All AsRead nodes)
    ?object ?array ?default ?assign ?ident ?other ?noElements ?spreadElement ?element
    ?noProperties ?property ?shorthand ?spread ?refused nested node
  case object =>
    intro nested flags place members induction asRead target equality
    rw [toTarget] at equality
    obtain ⟨nodes, isNodes, equality⟩ := Calculation.of_bind_eq_ok equality
    cases equality
    exact asRead.reshape rfl nofun (induction asRead.parts.2.1 nodes isNodes)
  case array =>
    intro nested flags place elements induction asRead target equality
    rw [toTarget] at equality
    obtain ⟨nodes, isNodes, equality⟩ := Calculation.of_bind_eq_ok equality
    cases equality
    exact asRead.reshape rfl nofun (induction asRead.parts.2.1 nodes isNodes)
  case default =>
    intro nested flags place s target t op u value isDefault induction asRead result equality
    simp only [toTarget, isDefault, if_true] at equality
    obtain ⟨inner, isInner, equality⟩ := Calculation.of_bind_eq_ok equality
    cases equality
    have childrenAre : ChildrenAsRead [⟨s, target⟩, ⟨t, op⟩, ⟨u, value⟩] := asRead.parts.2.1
    have innerIs := induction childrenAre.head inner isInner
    exact asRead.reshape rfl nofun (.cons innerIs (.cons childrenAre.tail.tail.head .nil))
  case assign =>
    intro nested flags place s target t op u value notDefault asRead result equality
    simp only [toTarget, notDefault] at equality
    cases equality
    exact asRead
  case ident =>
    intro nested flags place children asRead target equality
    rw [toTarget] at equality
    cases nested with
    | true =>
        cases equality
        exact asRead.reshape rfl nofun asRead.children
    | false =>
        cases equality
        exact asRead
  case other =>
    intro nested node notObject notArray notAssign notIdent asRead target equality
    rw [toTarget] at equality
    · cases equality
      exact asRead
    all_goals assumption
  case noElements =>
    intro childrenAre nodes equality
    cases equality
    exact .nil
  case spreadElement =>
    intro seat flags place s value rest valueInduction restInduction childrenAre nodes equality
    rw [toElements] at equality
    obtain ⟨inner, isInner, equality⟩ := Calculation.of_bind_eq_ok equality
    obtain ⟨others, areOthers, equality⟩ := Calculation.of_bind_eq_ok equality
    cases equality
    have innerIs := valueInduction (childrenAre.head.parts.2.1 _ List.mem_cons_self) inner isInner
    exact .cons (childrenAre.head.reshape rfl nofun (All.cons innerIs .nil))
      (restInduction childrenAre.tail others areOthers)
  case element =>
    intro seat node rest notSpread nodeInduction restInduction childrenAre nodes equality
    rw [toElements] at equality
    · obtain ⟨first, isFirst, equality⟩ := Calculation.of_bind_eq_ok equality
      obtain ⟨others, areOthers, equality⟩ := Calculation.of_bind_eq_ok equality
      cases equality
      exact .cons (nodeInduction childrenAre.head first isFirst)
        (restInduction childrenAre.tail others areOthers)
    all_goals assumption
  case noProperties =>
    intro childrenAre nodes equality
    cases equality
    exact .nil
  case property =>
    intro seat flags place s key t value rest valueInduction restInduction childrenAre nodes equality
    rw [toProperties] at equality
    obtain ⟨inner, isInner, equality⟩ := Calculation.of_bind_eq_ok equality
    obtain ⟨others, areOthers, equality⟩ := Calculation.of_bind_eq_ok equality
    cases equality
    have parts : ChildrenAsRead [⟨s, key⟩, ⟨t, value⟩] := childrenAre.head.parts.2.1
    have innerIs := valueInduction parts.tail.head inner isInner
    exact .cons (childrenAre.head.reshape rfl nofun (.cons parts.head (All.cons innerIs .nil)))
      (restInduction childrenAre.tail others areOthers)
  case shorthand =>
    intro seat flags place s ident rest restInduction childrenAre nodes equality
    rw [toProperties] at equality
    obtain ⟨others, areOthers, equality⟩ := Calculation.of_bind_eq_ok equality
    cases equality
    exact .cons (shorthandTarget_asRead childrenAre.head)
      (restInduction childrenAre.tail others areOthers)
  case spread =>
    intro seat flags place s value rest valueInduction restInduction childrenAre nodes equality
    rw [toProperties] at equality
    obtain ⟨inner, isInner, equality⟩ := Calculation.of_bind_eq_ok equality
    obtain ⟨others, areOthers, equality⟩ := Calculation.of_bind_eq_ok equality
    cases equality
    have innerIs := valueInduction (childrenAre.head.parts.2.1 _ List.mem_cons_self) inner isInner
    exact .cons (childrenAre.head.reshape rfl nofun (All.cons innerIs .nil))
      (restInduction childrenAre.tail others areOthers)
  case refused =>
    intro head tail notProperty notShorthand notSpread childrenAre nodes equality
    rw [toProperties] at equality
    · cases equality
    all_goals assumption

theorem asTarget_asRead {node : Node} (asRead : AsRead node) :
    Yields (asTarget node) AsRead := by
  unfold asTarget
  split
  case h_1 target isTarget => exact .of_pure (toTarget_asRead false node asRead target isTarget)
  case h_2 => exact .after fun _ => .of_failAt

end Grammar

end ScriptFold
