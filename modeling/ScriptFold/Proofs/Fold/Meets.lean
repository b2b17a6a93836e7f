import ScriptFold.Fold.Slot

/-!
# What folding steps give

`Meets given step holds` says that whatever the step gives has the property `holds`, if
`given` is the case and no node of an unexpected kind was noticed on the way.  Findings are
never taken back, so a step that ends without such a finding also began without one; this
part does not depend on what is given.
-/

namespace ScriptFold

/-- No node of an unexpected kind was noticed. -/
def NothingUnknown (diagnostics : List Diagnostic) : Prop :=
  ∀ diagnostic, diagnostic ∈ diagnostics → diagnostic.finding.kind ≠ "unknown-node-kind"

theorem node_inSeat (outcome : Outcome) (seat : Option Nat) :
    (outcome.inSeat seat).node = outcome.node := by
  cases outcome <;> rfl

namespace FoldM

/-- Whatever a step gives has a property, unless it noticed a node of an unexpected kind. -/
def Meets {α : Type} (given : Prop) (step : FoldM α) (holds : α → Prop) : Prop :=
  ∀ before value after, step.run.run before = (.ok value, after) → NothingUnknown after →
    NothingUnknown before ∧ (given → holds value)

variable {α β : Type} {given : Prop} {holds : α → Prop} {middle : β → Prop}

theorem Meets.of_pure {value : α} (is : given → holds value) : Meets given (pure value) holds := by
  intro before result after ran unknown
  cases ran
  exact ⟨unknown, is⟩

theorem Meets.of_throw {failure : Failure} : Meets given (throw failure : FoldM α) holds := by
  intro before result after ran
  cases ran

theorem Meets.of_fail {cause : FoldError} {node : Node} :
    Meets given (fail cause node : FoldM α) holds :=
  .of_throw

theorem Meets.bind {step : FoldM β} {next : β → FoldM α} (first : Meets given step middle)
    (second : ∀ value, Meets (given ∧ middle value) (next value) holds) :
    Meets given (step >>= next) holds := by
  intro before result after ran unknown
  cases firstRan : step.run.run before with
  | mk outcome between =>
      simp only [ExceptT.run_bind, StateT.run_bind, firstRan] at ran
      cases outcome with
      | error failure => cases ran
      | ok value =>
          obtain ⟨betweenUnknown, is⟩ := second value between result after ran unknown
          obtain ⟨beforeUnknown, isMiddle⟩ := first before value between firstRan betweenUnknown
          exact ⟨beforeUnknown, fun isGiven => is ⟨isGiven, isMiddle isGiven⟩⟩

/-- A step after a check that may refuse. -/
theorem Meets.refusing {condition : Prop} {_ : Decidable condition} {cause : FoldError}
    {node : Node} {next : PUnit → FoldM α} (meets : Meets given (next ⟨⟩) holds) :
    Meets given (if condition then fail cause node >>= next else next ⟨⟩) holds := by
  split
  · intro before result after ran
    cases ran
  · exact meets

/-- Two ways to a value, and one way on. -/
theorem Meets.either {condition : Prop} {_ : Decidable condition} {step other : FoldM β}
    {next : β → FoldM α} (first : Meets given (if condition then step else other) middle)
    (second : ∀ value, Meets (given ∧ middle value) (next value) holds) :
    Meets given (if condition then step >>= next else other >>= next) holds := by
  split
  case isTrue is =>
    rw [if_pos is] at first
    exact first.bind second
  case isFalse isNot =>
    rw [if_neg isNot] at first
    exact first.bind second

/-- A step whose value is only wrapped. -/
theorem Meets.map {step : FoldM β} {wrap : β → α} (first : Meets given step middle)
    (is : ∀ value, given → middle value → holds (wrap value)) :
    Meets given (wrap <$> step) holds := by
  rw [map_eq_pure_bind]
  exact first.bind fun value => .of_pure fun known => is value known.1 known.2

theorem Meets.weaken {other : Prop} {step : FoldM α} (meets : Meets given step holds)
    (is : other → given) : Meets other step holds := by
  intro before result after ran unknown
  exact (meets before result after ran unknown).imp_right fun holds known => holds (is known)

theorem Meets.mono {other : α → Prop} {step : FoldM α} (meets : Meets given step holds)
    (is : ∀ value, given → holds value → other value) : Meets given step other := by
  intro before result after ran unknown
  exact (meets before result after ran unknown).imp_right
    fun holds known => is result known (holds known)

theorem Meets.of_calculate {calculated : Except Fault α} :
    Meets given (calculate calculated) fun value => calculated = .ok value := by
  cases calculated with
  | ok value => exact .of_pure fun _ => rfl
  | error fault => exact .of_throw

theorem Meets.of_attempt {attempted : Except Failure α} :
    Meets given (attempt attempted) fun value => attempted = .ok value := by
  cases attempted with
  | ok value => exact .of_pure fun _ => rfl
  | error failure => exact .of_throw

private theorem report_run (finding : Finding) (node : Node) (before : List Diagnostic) :
    (report finding node).run.run before =
      (.ok (), before ++ [⟨finding, node.position?⟩]) :=
  rfl

/-- A finding keeps the earlier ones. -/
theorem Meets.of_report {finding : Finding} {node : Node} :
    Meets given (report finding node) fun _ => finding.kind ≠ "unknown-node-kind" := by
  intro before result after ran unknown
  rw [report_run] at ran
  cases ran
  refine ⟨fun diagnostic there => unknown diagnostic (List.mem_append_left _ there), fun _ => ?_⟩
  exact unknown ⟨finding, node.position?⟩ (List.mem_append_right _ List.mem_cons_self)

theorem Meets.of_locating {node : Node} {step : FoldM α} (meets : Meets given step holds) :
    Meets given (locating node step) holds := by
  intro before result after ran unknown
  refine meets before result after ?_ unknown
  cases stepRan : step.run.run before with
  | mk outcome between =>
      simp only [locating, ExceptT.run_tryCatch, StateT.run_bind, stepRan] at ran
      cases outcome with
      | error failure => cases ran
      | ok value =>
          cases ran
          rfl

theorem Meets.of_child {branch : Branch} {index : Nat} :
    Meets given (branch.child index) fun child => branch.children[index]? = some child := by
  unfold Branch.child
  split
  case h_1 child found => exact .of_pure fun _ => found
  case h_2 => exact .of_throw

/-- Every one of some values comes from the item at its index. -/
def EachFrom (relates : β → α → Prop) (items : List β) (values : List α) : Prop :=
  ∀ (index : Nat) (value : α), values[index]? = some value →
    ∃ item, items[index]? = some item ∧ relates item value

theorem EachFrom.nil {relates : β → α → Prop} {items : List β} : EachFrom relates items [] := by
  intro index value found
  cases found

theorem EachFrom.cons {relates : β → α → Prop} {item : β} {items : List β} {value : α}
    {values : List α} (is : relates item value) (are : EachFrom relates items values) :
    EachFrom relates (item :: items) (value :: values) := by
  intro index other found
  cases index with
  | zero =>
      cases found
      exact ⟨item, rfl, is⟩
  | succ index => exact are index other (by rwa [List.getElem?_cons_succ] at found)

/-- A step for every item of a list. -/
theorem Meets.mapM {act : β → FoldM α} {relates : β → α → Prop} {items : List β}
    (acts : ∀ item, item ∈ items → Meets given (act item) (relates item)) :
    Meets given (items.mapM act) (EachFrom relates items) := by
  induction items with
  | nil => exact .of_pure fun _ => .nil
  | cons item rest induction =>
      rw [List.mapM_cons]
      refine (acts item List.mem_cons_self).bind fun first => ?_
      refine Meets.bind ((induction fun other there =>
        acts other (List.mem_cons_of_mem _ there)).weaken And.left) fun others => ?_
      exact .of_pure fun known => .cons known.1.2 known.2

end FoldM

end ScriptFold
