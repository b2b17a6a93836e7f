import ScriptFold.Grammar.Reading
import ScriptFold.Grammar.Statement

/-!
# What readers give, and what they do from a state

What a reader gives is said in two ways: `Yields` for every state, and `Leads` for the states that
are as given.  The rules for both follow the way readers are put together.

`Yields reader holds` says that whatever the reader gives, from any state, has the
property `holds`.  A reader that fails gives nothing.
-/

namespace ScriptFold

namespace Grammar

/-- Whatever a reader gives has a property. -/
def Yields {α : Type} (reader : Reader α) (holds : α → Prop) : Prop :=
  ∀ state value after, reader.run state = .ok (value, after) → holds value

variable {α β : Type} {holds : α → Prop} {middle : β → Prop}

theorem Yields.of_pure {value : α} (is : holds value) : Yields (pure value) holds := by
  intro state result after equality
  cases equality
  exact is

theorem Yields.of_throw {failure : ParseFailure} : Yields (throw failure : Reader α) holds := by
  intro state result after equality
  cases equality

theorem Yields.of_failAt {cause : ParseError} {token : Token} :
    Yields (failAt cause token : Reader α) holds :=
  .of_throw

theorem Yields.bind {first : Reader β} {next : β → Reader α} (firstYields : Yields first middle)
    (nextYields : ∀ value, middle value → Yields (next value) holds) :
    Yields (first >>= next) holds := by
  intro state result after equality
  rw [StateT.run_bind] at equality
  cases ran : first.run state with
  | error failure =>
      rw [ran] at equality
      cases equality
  | ok value =>
      rw [ran] at equality
      exact nextYields value.1 (firstYields state value.1 value.2 ran) value.2 result after equality

/-- Nothing has to be known about what comes before. -/
theorem Yields.after {first : Reader β} {next : β → Reader α}
    (nextYields : ∀ value, Yields (next value) holds) : Yields (first >>= next) holds :=
  .bind (fun _ _ _ _ => trivial) fun value (_ : True) => nextYields value

/-- One of two readers, and what comes after both. -/
theorem Yields.either {condition : Prop} [Decidable condition] {first second : Reader β}
    {next : β → Reader α} (firstYields : Yields first middle)
    (secondYields : Yields second middle)
    (nextYields : ∀ value, middle value → Yields (next value) holds) :
    Yields (if condition then first >>= next else second >>= next) holds := by
  split
  · exact .bind firstYields nextYields
  · exact .bind secondYields nextYields

/-- A reader that may come before. -/
theorem Yields.optionally {condition : Prop} [Decidable condition] {first : Reader β}
    {next : Reader α} (yields : Yields next holds) :
    Yields (if condition then first >>= fun _ => next else next) holds := by
  split
  · exact .after fun _ => yields
  · exact yields

theorem Yields.allowingIn {allowed : Bool} {reader : Reader α} (yields : Yields reader holds) :
    Yields (allowingIn allowed reader) holds :=
  .after fun _ => .after fun _ => .bind yields fun _ is => .after fun _ => .of_pure is

/-- All items of a list have a property. -/
def All (holds : α → Prop) (items : List α) : Prop :=
  ∀ item, item ∈ items → holds item

theorem All.nil : All holds [] := by
  intro item there
  cases there

theorem All.cons {item : α} {rest : List α} (itemIs : holds item) (restAre : All holds rest) :
    All holds (item :: rest) := by
  intro other there
  cases there with
  | head => exact itemIs
  | tail _ there => exact restAre other there

theorem Yields.repeatWhile {continues : Reader Bool} {item : Reader α}
    (yields : Yields item holds) : Yields (repeatWhile continues item) (All holds) := by
  refine .after fun state => ?_
  generalize state.budget = budget
  induction budget with
  | zero => exact .of_throw
  | succ budget induction =>
      refine .after fun goes => ?_
      split
      · exact .bind yields fun first firstIs => .bind induction fun rest restAre =>
          .of_pure (.cons firstIs restAre)
      · exact .of_pure .nil

theorem Yields.commaList {closer : TokenType} {item : Reader α} (yields : Yields item holds) :
    Yields (commaList closer item) (All holds) := by
  refine .after fun state => ?_
  generalize state.budget = budget
  induction budget with
  | zero => exact .of_throw
  | succ budget induction =>
      refine .after fun closes => ?_
      split
      · exact .of_pure .nil
      · refine .bind yields fun first firstIs => .after fun goes => ?_
        split
        · exact .bind induction fun rest restAre => .of_pure (.cons firstIs restAre)
        · exact .of_pure (.cons firstIs .nil)

theorem Yields.commaItems {item : Reader α} (yields : Yields item holds) :
    Yields (commaItems item) (All holds) := by
  refine .after fun state => ?_
  generalize state.budget = budget
  induction budget with
  | zero => exact .of_throw
  | succ budget induction =>
      refine .bind yields fun first firstIs => .after fun goes => ?_
      split
      · exact .bind induction fun rest restAre => .of_pure (.cons firstIs restAre)
      · exact .of_pure (.cons firstIs .nil)

theorem Yields.holedList {closer : TokenType} {item : Reader Node} {holds : Node → Prop}
    (hole : holds .absent) (yields : Yields item holds) :
    Yields (holedList closer item) (All holds) := by
  refine .after fun state => ?_
  generalize state.budget = budget
  induction budget with
  | zero => exact .of_throw
  | succ budget induction =>
      refine .after fun closes => ?_
      split
      · exact .of_pure .nil
      · refine .after fun isHole => ?_
        split
        · exact .bind induction fun rest restAre => .of_pure (.cons hole restAre)
        · refine .bind yields fun first firstIs => .after fun goes => ?_
          split
          · exact .bind induction fun rest restAre => .of_pure (.cons firstIs restAre)
          · exact .of_pure (.cons firstIs .nil)

end Grammar

end ScriptFold

/-!
## What readers do from a state

`Leads given reader holds ensured` says that from every state as given, whatever the
reader gives has the property `holds` and the state that it leaves is as ensured.
Readers change the state by reading single tokens and by taking `in` as an operator or not, so
what lasts through both stays true; a reader about whose value nothing has to be known is in the
class `Keeps`.

A reader that gives nothing when no token is left is a case of this: `Opens reader` says that
from such a state everything it gives is impossible.
-/

namespace ScriptFold

namespace Grammar

/-- What a reader gives and leaves, from a state as wanted. -/
def Leads {α : Type} (given : State → Prop) (reader : Reader α) (holds : α → Prop)
    (ensured : State → Prop) : Prop :=
  ∀ state value left, given state → reader.run state = .ok (value, left) →
    holds value ∧ ensured left

/-- What does not depend on whether `in` counts as an operator. -/
class Steady (invariant : State → Prop) : Prop where
  noIn : ∀ {state : State} (noIn : Bool), invariant state → invariant { state with noIn }

/-- What also stays true when a token is read. -/
class Lasting (invariant : State → Prop) : Prop extends Steady invariant where
  advance : ∀ {state next : State} {token : Token}, invariant state →
    advance.run state = .ok (token, next) → invariant next

/-- Readers that keep all that lasts. -/
class Keeps {α : Type} (reader : Reader α) : Prop where
  leads : ∀ (invariant : State → Prop) [Lasting invariant],
    Leads invariant reader (fun _ => True) invariant

/-- Readers that leave the state as it is. -/
class Still {α : Type} (reader : Reader α) : Prop where
  same : ∀ state value left, reader.run state = .ok (value, left) → left = state

variable {α β : Type} {holds : α → Prop} {middle : β → Prop}
variable {given between ensured invariant : State → Prop}

namespace Leads

theorem of_pure {value : α} (is : holds value) : Leads invariant (pure value) holds invariant := by
  intro state result left isGiven ran
  cases ran
  exact ⟨is, isGiven⟩

theorem of_throw {failure : ParseFailure} :
    Leads given (throw failure : Reader α) holds ensured := by
  intro state result left isGiven ran
  cases ran

theorem of_failAt {cause : ParseError} {token : Token} :
    Leads given (failAt cause token : Reader α) holds ensured :=
  .of_throw

theorem bind {first : Reader β} {next : β → Reader α}
    (begins : Leads given first middle between)
    (ends : ∀ value, middle value → Leads between (next value) holds ensured) :
    Leads given (first >>= next) holds ensured := by
  intro state result left isGiven ran
  rw [StateT.run_bind] at ran
  cases firstRan : first.run state with
  | error failure =>
      rw [firstRan] at ran
      cases ran
  | ok value =>
      rw [firstRan] at ran
      have isBetween := begins state value.1 value.2 isGiven firstRan
      exact ends value.1 isBetween.1 value.2 result left isBetween.2 ran

/-- Nothing has to be known about what comes before. -/
theorem after [Lasting invariant] {first : Reader β} {next : β → Reader α} [keeps : Keeps first]
    (ends : ∀ value, Leads invariant (next value) holds ensured) :
    Leads invariant (first >>= next) holds ensured :=
  .bind (keeps.leads invariant) fun value _ => ends value

/-- The state does not change. -/
theorem still {first : Reader β} {next : β → Reader α} [still : Still first]
    (ends : ∀ value, Leads given (next value) holds ensured) :
    Leads given (first >>= next) holds ensured := by
  have same : Leads given first (fun _ => True) given := by
    intro state value left isGiven ran
    rw [still.same state value left ran]
    exact ⟨trivial, isGiven⟩
  exact .bind same fun value _ => ends value

theorem ite {condition : Prop} [Decidable condition] {first second : Reader α}
    (whenTrue : condition → Leads given first holds ensured)
    (whenFalse : ¬condition → Leads given second holds ensured) :
    Leads given (if condition then first else second) holds ensured := by
  by_cases is : condition
  · rw [if_pos is]
    exact whenTrue is
  · rw [if_neg is]
    exact whenFalse is

/-- One of two readers, and what comes after both. -/
theorem decided {condition : Prop} [Decidable condition] {first second : Reader β}
    {next : β → Reader α}
    (begins : Leads given (if condition then first else second) middle between)
    (ends : ∀ value, middle value → Leads between (next value) holds ensured) :
    Leads given (if condition then first >>= next else second >>= next) holds ensured := by
  split
  case isTrue is =>
    rw [if_pos is] at begins
    exact .bind begins ends
  case isFalse isNot =>
    rw [if_neg isNot] at begins
    exact .bind begins ends

theorem either {condition : Prop} [Decidable condition] {first second : Reader β}
    {next : β → Reader α} (whenTrue : Leads given first middle between)
    (whenFalse : Leads given second middle between)
    (ends : ∀ value, middle value → Leads between (next value) holds ensured) :
    Leads given (if condition then first >>= next else second >>= next) holds ensured :=
  .decided (.ite (fun _ => whenTrue) fun _ => whenFalse) ends

/-- A reader that may come before. -/
theorem optionally [Lasting invariant] {condition : Prop} [Decidable condition]
    {first : Reader β} {next : Reader α} [Keeps first]
    (leads : Leads invariant next holds ensured) :
    Leads invariant (if condition then first >>= fun _ => next else next) holds ensured :=
  .ite (fun _ => .after fun _ => leads) fun _ => leads

/-- What a reader gives is given as something that may be missing. -/
theorem some {reader : Reader α} (leads : Leads given reader holds ensured) :
    Leads given (do return some (← reader))
      (fun result => ∀ value, result = .some value → holds value) ensured := by
  apply bind leads
  intro value is
  apply of_pure
  intro other isOther
  cases isOther
  exact is

theorem mono {other : α → Prop} {reader : Reader α} (leads : Leads given reader holds ensured)
    (is : ∀ value, holds value → other value) : Leads given reader other ensured := by
  intro state result left isGiven ran
  exact (leads state result left isGiven ran).imp_left (is result)

/-- More may be known of the state than is needed. -/
theorem from_state {reader : Reader α} (leads : Leads between reader holds ensured)
    (is : ∀ state, given state → between state) : Leads given reader holds ensured :=
  fun state result left isGiven ran => leads state result left (is state isGiven) ran

theorem and_yields {other : α → Prop} {reader : Reader α}
    (leads : Leads given reader holds ensured) (yields : Yields reader other) :
    Leads given reader (fun value => holds value ∧ other value) ensured := by
  intro state result left isGiven ran
  exact (leads state result left isGiven ran).imp_left
    fun is => ⟨is, yields state result left ran⟩

end Leads

/-! ### Readers that leave the state as it is -/

instance {value : α} : Still (pure value : Reader α) where
  same := by
    intro state result left ran
    cases ran
    rfl

instance {failure : ParseFailure} : Still (throw failure : Reader α) where
  same := by
    intro state result left ran
    cases ran

instance {cause : ParseError} {token : Token} : Still (failAt cause token : Reader α) :=
  inferInstanceAs (Still (throw _))

instance : Still (get : Reader State) where
  same := by
    intro state result left ran
    cases ran
    rfl

instance {first : Reader β} {next : β → Reader α} [begins : Still first]
    [ends : ∀ value, Still (next value)] : Still (first >>= next) where
  same := by
    intro state result left ran
    have goes : Leads (· = state) (first >>= next) (fun _ => True) (· = state) :=
      .still fun value other result left isState ran =>
        ⟨trivial, ((ends value).same other result left ran).trans isState⟩
    exact (goes state result left rfl ran).2

instance {condition : Prop} [Decidable condition] {first second : Reader α}
    [whenTrue : Still first] [whenFalse : Still second] :
    Still (if condition then first else second) := by
  split <;> assumption

instance : Still current := by
  unfold current
  infer_instance

instance {offset : Nat} : Still (peek offset) := by
  unfold peek
  infer_instance

instance {types : List TokenType} : Still (check types) := by
  unfold check
  infer_instance

instance {name : String} : Still (checkName name) := by
  unfold checkName
  infer_instance

instance : Still isArrowStart := by
  unfold isArrowStart
  infer_instance

instance : Still isAsyncFunction := by
  unfold isAsyncFunction
  infer_instance

instance {least : Nat} : Still (operator? least) := by
  unfold operator?
  infer_instance

/-! ### Readers that keep what lasts -/

instance {reader : Reader α} [still : Still reader] : Keeps reader where
  leads invariant _ := by
    intro state result left isGiven ran
    rw [still.same state result left ran]
    exact ⟨trivial, isGiven⟩

instance {first : Reader β} {next : β → Reader α} [Keeps first]
    [ends : ∀ value, Keeps (next value)] : Keeps (first >>= next) where
  leads invariant _ := .after fun value => (ends value).leads invariant

instance {condition : Prop} [Decidable condition] {first second : Reader α}
    [whenTrue : Keeps first] [whenFalse : Keeps second] :
    Keeps (if condition then first else second) := by
  split <;> assumption

/-- Reading a token leaves the source and drops the token, unless it is the last one. -/
theorem advance_drops {state next : State} {token : Token}
    (ran : advance.run state = .ok (token, next)) :
    next.source = state.source ∧ ∀ other, other ∈ next.tokens → other ∈ state.tokens := by
  cases ran
  refine ⟨rfl, fun other there => ?_⟩
  revert there
  cases state.tokens with
  | nil => exact id
  | cons first rest =>
      cases rest with
      | nil => exact id
      | cons next rest => exact List.mem_cons_of_mem _

/-- What is true of a source and of all tokens left lasts. -/
theorem Lasting.of_drop (drop : ∀ {state next : State}, invariant state →
    next.source = state.source → (∀ token, token ∈ next.tokens → token ∈ state.tokens) →
      invariant next) : Lasting invariant where
  noIn _ is := drop is rfl fun _ => id
  advance is ran := drop is (advance_drops ran).1 (advance_drops ran).2

theorem setNoIn_leads [steady : Steady invariant] {change : State → Bool} :
    Leads invariant (modify fun state => { state with noIn := change state } : Reader PUnit)
      (fun _ => True) invariant := by
  intro state result left isGiven ran
  cases ran
  exact ⟨trivial, steady.noIn _ isGiven⟩

instance : Keeps advance where
  leads invariant lasting := by
    intro state result left isGiven ran
    exact ⟨trivial, lasting.advance isGiven ran⟩

instance {type : TokenType} : Keeps (accept type) := by
  unfold accept
  infer_instance

instance {type : TokenType} {cause : Token → ParseError} : Keeps (expectOr type cause) := by
  unfold expectOr
  infer_instance

instance {type : TokenType} : Keeps (expect type) :=
  inferInstanceAs (Keeps (expectOr type _))

instance : Keeps statementEnd := by
  unfold statementEnd
  infer_instance

instance : Keeps modifiers := by
  unfold modifiers
  infer_instance

instance {optional : Bool} : Keeps (propertyName optional) := by
  unfold propertyName
  infer_instance

/-! ### Repetition -/

section

variable [Lasting invariant]

theorem Leads.allowingIn {allowed : Bool} {reader : Reader α}
    (leads : Leads invariant reader holds invariant) :
    Leads invariant (allowingIn allowed reader) holds invariant := by
  refine .after fun _ => .bind setNoIn_leads fun _ _ => ?_
  refine .bind leads fun _ is => ?_
  exact .bind setNoIn_leads fun _ _ => .of_pure is

theorem Leads.repeatWhile {continues : Reader Bool} {item : Reader α} [Keeps continues]
    (leads : Leads invariant item holds invariant) :
    Leads invariant (repeatWhile continues item) (All holds) invariant := by
  refine .after fun state => ?_
  generalize state.budget = budget
  induction budget with
  | zero => exact .of_throw
  | succ budget induction =>
      refine .after fun goes => ?_
      split
      · exact .bind leads fun first firstIs => .bind induction fun rest restAre =>
          .of_pure (.cons firstIs restAre)
      · exact .of_pure .nil

theorem Leads.commaList {closer : TokenType} {item : Reader α}
    (leads : Leads invariant item holds invariant) :
    Leads invariant (commaList closer item) (All holds) invariant := by
  refine .after fun state => ?_
  generalize state.budget = budget
  induction budget with
  | zero => exact .of_throw
  | succ budget induction =>
      refine .after fun closes => ?_
      split
      · exact .of_pure .nil
      · refine .bind leads fun first firstIs => .after fun goes => ?_
        split
        · exact .bind induction fun rest restAre => .of_pure (.cons firstIs restAre)
        · exact .of_pure (.cons firstIs .nil)

theorem Leads.commaItems {item : Reader α} (leads : Leads invariant item holds invariant) :
    Leads invariant (commaItems item) (All holds) invariant := by
  refine .after fun state => ?_
  generalize state.budget = budget
  induction budget with
  | zero => exact .of_throw
  | succ budget induction =>
      refine .bind leads fun first firstIs => .after fun goes => ?_
      split
      · exact .bind induction fun rest restAre => .of_pure (.cons firstIs restAre)
      · exact .of_pure (.cons firstIs .nil)

theorem Leads.holedList {closer : TokenType} {item : Reader Node} {holds : Node → Prop}
    (hole : holds .absent) (leads : Leads invariant item holds invariant) :
    Leads invariant (holedList closer item) (All holds) invariant := by
  refine .after fun state => ?_
  generalize state.budget = budget
  induction budget with
  | zero => exact .of_throw
  | succ budget induction =>
      refine .after fun closes => ?_
      split
      · exact .of_pure .nil
      · refine .after fun isHole => ?_
        split
        · exact .bind induction fun rest restAre => .of_pure (.cons hole restAre)
        · refine .bind leads fun first firstIs => .after fun goes => ?_
          split
          · exact .bind induction fun rest restAre => .of_pure (.cons firstIs restAre)
          · exact .of_pure (.cons firstIs .nil)

theorem skipBraces_loop_leads (budget depth : Nat) :
    Leads invariant (skipBraces.loop budget depth) (fun _ => True) invariant := by
  induction budget generalizing depth with
  | zero => exact .of_throw
  | succ budget induction =>
      cases depth with
      | zero => exact .of_pure trivial
      | succ depth =>
          refine .after fun token => .optionally (.after fun _ => ?_)
          split <;> exact induction _

end

instance {continues : Reader Bool} {item : Reader α} [Keeps continues] [keeps : Keeps item] :
    Keeps (repeatWhile continues item) :=
  ⟨fun invariant _ => (keeps.leads invariant).repeatWhile.mono fun _ _ => trivial⟩

instance : Keeps skipBraces :=
  ⟨fun _ _ => .after fun _ => .after fun _ => skipBraces_loop_leads _ _⟩

instance : Keeps skipAttributes := by
  unfold skipAttributes
  infer_instance

instance : Keeps moduleName := by
  unfold moduleName
  infer_instance

end Grammar

end ScriptFold
