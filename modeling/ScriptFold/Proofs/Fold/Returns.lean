import ScriptFold.Fold.Slot

/-!
# Folding steps that return

`Returns step value` says that a folding step can end without a failure and give
`value`.  The diagnostics a step starts from and leaves behind play no part in what
it gives, so they are left out.  The lemmas below take a step that returns apart.
`Gives step holds` says that every value a step can give has a property; a step that fails
gives nothing.  `Succeeds`, `Refused` and `Stops` say how every run of a step ends.
-/

namespace ScriptFold

namespace FoldM

/-- A step gives a value from some diagnostics. -/
def Returns {α : Type} (step : FoldM α) (value : α) : Prop :=
  ∃ before after, step.run.run before = (.ok value, after)

variable {α β : Type}

theorem Returns.eq_of_pure {value result : α}
    (returns : Returns (pure value) result) : result = value := by
  obtain ⟨before, after, equality⟩ := returns
  cases equality
  rfl

theorem Returns.of_bind {step : FoldM α} {next : α → FoldM β} {result : β}
    (returns : Returns (step >>= next) result) :
    ∃ value, Returns step value ∧ Returns (next value) result := by
  obtain ⟨before, after, equality⟩ := returns
  cases first : step.run.run before with
  | mk outcome between =>
      simp only [ExceptT.run_bind, StateT.run_bind, first] at equality
      cases outcome with
      | error failure => cases equality
      | ok value => exact ⟨value, ⟨before, between, first⟩, ⟨between, after, equality⟩⟩

/-- A step and what comes next, run from some diagnostics. -/
theorem run_bind (step : FoldM α) (next : α → FoldM β) (before : List Diagnostic) :
    (step >>= next).run.run before =
      match step.run.run before with
      | (.ok value, between) => (next value).run.run between
      | (.error failure, between) => (.error failure, between) := by
  simp only [ExceptT.run_bind, StateT.run_bind]
  cases ran : step.run.run before with
  | mk outcome between => cases outcome <;> rfl

theorem run_locating (node : Node) (step : FoldM α) (before : List Diagnostic) :
    (locating node step).run.run before =
      match step.run.run before with
      | (.ok value, between) => (.ok value, between)
      | (.error failure, between) => (.error (failure.locate node.position?), between) := by
  simp only [locating, ExceptT.run_tryCatch, StateT.run_bind]
  cases ran : step.run.run before with
  | mk outcome between => cases outcome <;> rfl

/-- Only the values that a step can give matter for what comes next. -/
theorem bind_congr {step : FoldM α} {next other : α → FoldM β}
    (same : ∀ value, Returns step value → next value = other value) :
    (step >>= next) = (step >>= other) := by
  apply ExceptT.ext
  apply StateT.ext
  intro before
  rw [run_bind, run_bind]
  cases ran : step.run.run before with
  | mk outcome between =>
      cases outcome with
      | error failure => rfl
      | ok value => simp only [same value ⟨before, between, ran⟩]

/-- A step that one of two steps comes before. -/
theorem Returns.of_ite_bind {condition : Prop} [Decidable condition] {first second : FoldM α}
    {next : α → FoldM β} {result : β}
    (returns : Returns (if condition then first >>= next else second >>= next) result) :
    ∃ value, Returns (if condition then first else second) value ∧
      Returns (next value) result := by
  split at returns <;> rename_i holds
  · simpa only [holds, if_true] using returns.of_bind
  · simpa only [holds, if_false] using returns.of_bind

theorem not_returns_throw {failure : Failure} {result : α} :
    ¬ Returns (throw failure) result := by
  rintro ⟨before, after, equality⟩
  cases equality

theorem Returns.of_calculate {calculated : Except Fault α} {result : α}
    (returns : Returns (calculate calculated) result) : calculated = .ok result := by
  cases calculated with
  | ok value => rw [returns.eq_of_pure]
  | error fault => exact absurd returns not_returns_throw

/-- Locating failures changes nothing about what a step gives. -/
theorem Returns.of_locating {node : Node} {step : FoldM α} {result : α}
    (returns : Returns (locating node step) result) : Returns step result := by
  obtain ⟨before, after, equality⟩ := returns
  cases first : step.run.run before with
  | mk outcome between =>
      simp only [locating, ExceptT.run_tryCatch, StateT.run_bind, first] at equality
      cases outcome with
      | error failure => cases equality
      | ok value =>
          cases equality
          exact ⟨before, between, first⟩

/-- A step that gives a value that passes a test when it is run. -/
theorem exists_returns_of_any {step : FoldM α} {test : α → Bool}
    (holds : (step.run.run []).1.toOption.any test = true) :
    ∃ value, Returns step value ∧ test value = true := by
  cases ran : step.run.run [] with
  | mk outcome after =>
      rw [ran] at holds
      cases outcome with
      | error failure => cases holds
      | ok value => exact ⟨value, ⟨[], after, ran⟩, holds⟩

/-! ### What steps give -/

/-- Every value that a step gives has a property. -/
structure Gives {α : Type} (step : FoldM α) (holds : α → Prop) : Prop where
  of_returns : ∀ value, Returns step value → holds value

namespace Gives

variable {α β : Type} {holds other : α → Prop} {middle : β → Prop}

theorem refl (step : FoldM α) : Gives step (Returns step) :=
  ⟨fun _ returns => returns⟩

theorem of_pure {value : α} (is : holds value) : Gives (pure value) holds := by
  constructor
  intro result returns
  rw [returns.eq_of_pure]
  exact is

theorem of_throw {failure : Failure} : Gives (throw failure : FoldM α) holds :=
  ⟨fun _ returns => absurd returns not_returns_throw⟩

theorem of_fail {cause : FoldError} {node : Node} : Gives (fail cause node : FoldM α) holds :=
  .of_throw

theorem of_calculate {calculated : Except Fault α} :
    Gives (calculate calculated) fun value => calculated = .ok value :=
  ⟨fun _ returns => returns.of_calculate⟩

theorem mono {step : FoldM α} (gives : Gives step other)
    (implies : ∀ value, other value → holds value) : Gives step holds :=
  ⟨fun value returns => implies value (gives.of_returns value returns)⟩

/-- The values of a step have the property, and are values of the step. -/
theorem returning {step : FoldM α} (gives : Gives step holds) :
    Gives step fun value => Returns step value ∧ holds value :=
  ⟨fun value returns => ⟨returns, gives.of_returns value returns⟩⟩

theorem bind {step : FoldM β} {next : β → FoldM α} (begins : Gives step middle)
    (goes : ∀ value, middle value → Gives (next value) holds) : Gives (step >>= next) holds := by
  constructor
  intro result returns
  obtain ⟨between, first, last⟩ := returns.of_bind
  exact (goes between (begins.of_returns between first)).of_returns result last

/-- A step whose results play no part. -/
theorem after {step : FoldM β} {next : β → FoldM α} (goes : ∀ value, Gives (next value) holds) :
    Gives (step >>= next) holds :=
  (refl step).bind fun value _ => goes value

theorem locating {node : Node} {step : FoldM α} (gives : Gives step holds) :
    Gives (FoldM.locating node step) holds :=
  ⟨fun value returns => gives.of_returns value returns.of_locating⟩

/-- One of two steps, and one way on. -/
theorem either {condition : Prop} [Decidable condition] {first second : FoldM β}
    {next : β → FoldM α} (begins : Gives (if condition then first else second) middle)
    (goes : ∀ value, middle value → Gives (next value) holds) :
    Gives (if condition then first >>= next else second >>= next) holds := by
  constructor
  intro result returns
  obtain ⟨between, first, last⟩ := returns.of_ite_bind
  exact (goes between (begins.of_returns between first)).of_returns result last

/-- A child that a branch must have. -/
theorem of_child {branch : Branch} {index : Nat} :
    Gives (branch.child index) fun child => branch.children[index]? = some child := by
  unfold Branch.child
  split
  case h_1 child found => exact .of_pure found
  case h_2 => exact .of_throw

/-- Every result of a step for each item of a list comes from one of the items. -/
theorem mapM {act : β → FoldM α} {relates : β → α → Prop} {items : List β}
    (acts : ∀ item, item ∈ items → Gives (act item) (relates item)) :
    Gives (items.mapM act) fun results =>
      ∀ result, result ∈ results → ∃ item, item ∈ items ∧ relates item result := by
  induction items with
  | nil => exact .of_pure nofun
  | cons item rest induction =>
      rw [List.forall_mem_cons] at acts
      rw [List.mapM_cons]
      apply acts.1.bind
      intro first isFirst
      apply (induction acts.2).bind
      intro others areOthers
      apply Gives.of_pure
      rw [List.forall_mem_cons]
      refine ⟨⟨item, List.mem_cons_self, isFirst⟩, fun result there => ?_⟩
      obtain ⟨other, isOther, related⟩ := areOthers result there
      exact ⟨other, List.mem_cons_of_mem _ isOther, related⟩

end Gives

/-! ### How steps end -/

/-- Every run of a step gives a value, and the value has a property. -/
def Succeeds {α : Type} (step : FoldM α) (holds : α → Prop) : Prop :=
  ∀ before, ∃ value after, step.run.run before = (.ok value, after) ∧ holds value

/-- Every run of a step ends with a fold error. -/
def Refused {α : Type} (step : FoldM α) : Prop :=
  ∀ before, ∃ cause position after, step.run.run before = (.error (.fold cause position), after)

/-- No run of a step gives a value. -/
def Stops {α : Type} (step : FoldM α) : Prop :=
  ∀ value, ¬ Returns step value

section Ends

variable {α β : Type} {holds other : α → Prop} {middle : β → Prop}

theorem Succeeds.of_pure {value : α} (is : holds value) : Succeeds (pure value) holds :=
  fun before => ⟨value, before, rfl, is⟩

theorem Succeeds.of_report {finding : Finding} {node : Node} :
    Succeeds (report finding node) fun _ => True :=
  fun _ => ⟨(), _, rfl, trivial⟩

theorem Succeeds.mono {step : FoldM α} (succeeds : Succeeds step other)
    (implies : ∀ value, other value → holds value) : Succeeds step holds := by
  intro before
  obtain ⟨value, after, ran, is⟩ := succeeds before
  exact ⟨value, after, ran, implies value is⟩

theorem Succeeds.bind {step : FoldM β} {next : β → FoldM α} (begins : Succeeds step middle)
    (goes : ∀ value, middle value → Succeeds (next value) holds) :
    Succeeds (step >>= next) holds := by
  intro before
  obtain ⟨value, between, ran, is⟩ := begins before
  rw [run_bind, ran]
  exact goes value is between

theorem Succeeds.locating {node : Node} {step : FoldM α} (succeeds : Succeeds step holds) :
    Succeeds (FoldM.locating node step) holds := by
  intro before
  obtain ⟨value, after, ran, is⟩ := succeeds before
  rw [run_locating, ran]
  exact ⟨value, after, rfl, is⟩

/-- A step that is refused after one that gives a value. -/
theorem Succeeds.refused {step : FoldM β} {next : β → FoldM α} (begins : Succeeds step middle)
    (goes : ∀ value, middle value → Refused (next value)) : Refused (step >>= next) := by
  intro before
  obtain ⟨value, between, ran, is⟩ := begins before
  rw [run_bind, ran]
  exact goes value is between

theorem Refused.of_fail {cause : FoldError} {node : Node} : Refused (fail cause node : FoldM α) :=
  fun before => ⟨cause, node.position?, before, rfl⟩

theorem Refused.bind {step : FoldM β} {next : β → FoldM α} (refused : Refused step) :
    Refused (step >>= next) := by
  intro before
  obtain ⟨cause, position, after, ran⟩ := refused before
  rw [run_bind, ran]
  exact ⟨cause, position, after, rfl⟩

theorem Refused.locating {node : Node} {step : FoldM α} (refused : Refused step) :
    Refused (FoldM.locating node step) := by
  intro before
  obtain ⟨cause, position, after, ran⟩ := refused before
  rw [run_locating, ran]
  cases position <;> exact ⟨cause, _, after, rfl⟩

theorem Refused.stops {step : FoldM α} (refused : Refused step) : Stops step := by
  intro value returns
  obtain ⟨before, after, ran⟩ := returns
  obtain ⟨cause, position, between, failed⟩ := refused before
  rw [ran] at failed
  cases failed

theorem Stops.bind {step : FoldM β} {next : β → FoldM α} (stops : Stops step) :
    Stops (step >>= next) := by
  intro value returns
  obtain ⟨between, first, _⟩ := returns.of_bind
  exact stops between first

theorem Stops.after {step : FoldM β} {next : β → FoldM α}
    (goes : ∀ value, Returns step value → Stops (next value)) : Stops (step >>= next) := by
  intro value returns
  obtain ⟨between, first, last⟩ := returns.of_bind
  exact goes between first value last

theorem Stops.locating {node : Node} {step : FoldM α} (stops : Stops step) :
    Stops (FoldM.locating node step) :=
  fun value returns => stops value returns.of_locating

end Ends

end FoldM

end ScriptFold

/-!
## Comparing folding steps

A likeness compares two folding steps and says what both of them may give.  It is kept when
steps are put together, so two ways to fold a tree are alike as soon as they are alike on
the nodes below and on the calls of macros.
-/

namespace ScriptFold

/-- A way to compare two folding steps that give the same sort of results. -/
structure Likeness where
  alike : {α : Type} → (first second : FoldM α) → (results : α → Prop) → Prop
  refl : ∀ {α : Type} (step : FoldM α), alike step step (FoldM.Returns step)
  weaken : ∀ {α : Type} {first second : FoldM α} {results other : α → Prop},
    alike first second results → (∀ value, results value → other value) →
      alike first second other
  bind : ∀ {α β : Type} {first second : FoldM β} {next other : β → FoldM α}
    {middle : β → Prop} {results : α → Prop}, alike first second middle →
      (∀ value, middle value → alike (next value) (other value) results) →
      alike (first >>= next) (second >>= other) results
  locating : ∀ {α : Type} {node : Node} {first second : FoldM α} {results : α → Prop},
    alike first second results →
      alike (FoldM.locating node first) (FoldM.locating node second) results

namespace Likeness

variable (likeness : Likeness) {α β : Type} {results : α → Prop} {middle : β → Prop}

theorem of_pure {value : α} (is : results value) :
    likeness.alike (pure value) (pure value) results := by
  apply likeness.weaken (likeness.refl (pure value))
  intro result returns
  rw [returns.eq_of_pure]
  exact is

theorem of_throw {failure : Failure} :
    likeness.alike (throw failure : FoldM α) (throw failure) results := by
  apply likeness.weaken (likeness.refl _)
  intro result returns
  exact absurd returns FoldM.not_returns_throw

theorem of_fail {cause : FoldError} {node : Node} :
    likeness.alike (FoldM.fail cause node : FoldM α) (FoldM.fail cause node) results :=
  likeness.of_throw

theorem of_report {finding : Finding} {node : Node} :
    likeness.alike (FoldM.report finding node) (FoldM.report finding node) fun _ => True :=
  likeness.weaken (likeness.refl _) fun _ _ => trivial

theorem of_calculate {calculated : Except Fault α} :
    likeness.alike (FoldM.calculate calculated) (FoldM.calculate calculated)
      fun value => calculated = .ok value :=
  likeness.weaken (likeness.refl _) fun _ returns => returns.of_calculate

theorem of_attempt {attempted : Except Failure α} :
    likeness.alike (FoldM.attempt attempted) (FoldM.attempt attempted)
      fun value => attempted = .ok value := by
  cases attempted with
  | ok value => exact likeness.of_pure rfl
  | error failure => exact likeness.of_throw

theorem of_parse {source : Source} :
    likeness.alike (FoldM.parse source) (FoldM.parse source)
      fun tree => parseScript source = .ok tree := by
  apply likeness.weaken likeness.of_attempt
  intro tree parsed
  cases read : parseScript source with
  | ok other =>
      rw [read] at parsed
      cases parsed
      rfl
  | error failure =>
      rw [read] at parsed
      cases parsed

/-- A step whose results play no part. -/
theorem after {step : FoldM β} {next other : β → FoldM α}
    (goes : ∀ value, likeness.alike (next value) (other value) results) :
    likeness.alike (step >>= next) (step >>= other) results :=
  likeness.bind (likeness.refl step) fun value _ => goes value

/-- One of two steps, and one way on. -/
theorem either {condition : Prop} [Decidable condition] {first second third fourth : FoldM β}
    {next other : β → FoldM α}
    (begins : likeness.alike (if condition then first else second)
      (if condition then third else fourth) middle)
    (goes : ∀ value, middle value → likeness.alike (next value) (other value) results) :
    likeness.alike (if condition then first >>= next else second >>= next)
      (if condition then third >>= other else fourth >>= other) results := by
  by_cases is : condition
  · simp only [is, if_true] at begins ⊢
    exact likeness.bind begins goes
  · simp only [is, if_false] at begins ⊢
    exact likeness.bind begins goes

/-- Steps after a check that may refuse. -/
theorem refusing {condition : Prop} [Decidable condition] {cause : FoldError} {node : Node}
    {next other : PUnit → FoldM α} (goes : likeness.alike (next ⟨⟩) (other ⟨⟩) results) :
    likeness.alike (if condition then FoldM.fail cause node >>= next else next ⟨⟩)
      (if condition then FoldM.fail cause node >>= other else other ⟨⟩) results := by
  by_cases is : condition
  · simp only [is, if_true]
    exact likeness.of_fail
  · simp only [is, if_false]
    exact goes

/-- A step for every item of a list. -/
theorem mapM {act other : β → FoldM α} {items : List β}
    (acts : ∀ item, item ∈ items → likeness.alike (act item) (other item) results) :
    likeness.alike (items.mapM act) (items.mapM other)
      fun values => ∀ value, value ∈ values → results value := by
  induction items with
  | nil =>
      apply likeness.of_pure
      simp
  | cons item rest induction =>
      rw [List.mapM_cons, List.mapM_cons]
      apply likeness.bind (acts item List.mem_cons_self)
      intro first firstIs
      apply likeness.bind (induction fun other there => acts other (List.mem_cons_of_mem _ there))
      intro others othersAre
      apply likeness.of_pure
      simp only [List.forall_mem_cons]
      exact ⟨firstIs, othersAre⟩

/-- Steps are the same. -/
def equality : Likeness where
  alike first second results := first = second ∧ ∀ value, FoldM.Returns first value → results value
  refl step := ⟨rfl, fun _ returns => returns⟩
  weaken is implies := ⟨is.1, fun value returns => implies value (is.2 value returns)⟩
  bind := by
    rintro α β first second next other middle results ⟨rfl, begins⟩ goes
    constructor
    · exact FoldM.bind_congr fun value returns => (goes value (begins value returns)).1
    · intro value returns
      obtain ⟨between, first, last⟩ := returns.of_bind
      exact (goes between (begins between first)).2 value last
  locating is := ⟨by rw [is.1], fun value returns => is.2 value returns.of_locating⟩

/-- Steps are the same, unless the first one has a failure of some sort. -/
def unlessFails (sort : Failure → Prop)
    (located : ∀ failure position, sort failure → sort (failure.locate position)) : Likeness where
  alike first second results :=
    (∀ before, first.run.run before = second.run.run before ∨
      ∃ failure after, first.run.run before = (.error failure, after) ∧ sort failure) ∧
    ∀ value, FoldM.Returns first value → results value
  refl step := ⟨fun _ => .inl rfl, fun _ returns => returns⟩
  weaken is implies := ⟨is.1, fun value returns => implies value (is.2 value returns)⟩
  bind := by
    rintro α β first second next other middle results ⟨same, begins⟩ goes
    constructor
    · intro before
      rw [FoldM.run_bind, FoldM.run_bind]
      rcases same before with same | ⟨failure, after, failed, isSort⟩
      · rw [← same]
        cases ran : first.run.run before with
        | mk outcome between =>
            cases outcome with
            | error failure => exact .inl rfl
            | ok value => exact (goes value (begins value ⟨before, between, ran⟩)).1 between
      · rw [failed]
        exact .inr ⟨failure, after, rfl, isSort⟩
    · intro value returns
      obtain ⟨between, first, last⟩ := returns.of_bind
      exact (goes between (begins between first)).2 value last
  locating := by
    rintro α node first second results ⟨same, returns⟩
    constructor
    · intro before
      rw [FoldM.run_locating, FoldM.run_locating]
      rcases same before with same | ⟨failure, after, failed, isSort⟩
      · rw [← same]
        exact .inl rfl
      · rw [failed]
        exact .inr ⟨_, after, rfl, located failure _ isSort⟩
    · exact fun value located => returns value located.of_locating

end Likeness

end ScriptFold
