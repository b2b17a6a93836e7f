import ScriptFold.Proofs.Fold.Meets
import ScriptFold.Proofs.Fold.Substitution

/-!
# What folding sees of an object

What is seen of an object goes up a chain link by link: a name shows the value that it is bound
to, and a link shows the property that it reads.  As soon as one link shows nothing, because its
key is not known, the property is inherited, or the value has no literal, no later link shows
anything.  Folding a chain comes to an expression that writes the value that is seen of it, to one
that writes none, or to a refusal.
-/

namespace ScriptFold

open FoldM (Succeeds Refused)
open Fold (Inert)

/-- A walker that folds a tree as the step of its kind does. -/
def Walker.Steps (walker : Walker) : Prop :=
  ∀ branch : Branch,
    walker.walk branch.toNode = FoldM.locating branch.toNode (Fold.step walker branch)

/-- An expression that writes a value, or that writes none. -/
structure Node.Shows (value : Option Value) (node : Node) : Prop where
  isExpression : ∃ kind, node.kind? = some kind ∧ kind.isStatement = false
  known : Literal.value? node = .ok value

namespace Chain

/-! ### What is seen of an object -/

/-- What folding an expression comes to. -/
inductive Sight where
  /-- An expression that writes a value, or one that writes none. -/
  | shown (value : Option Value)
  /-- A refusal, because a property is read that is not there, or the name of a value is one of
  a function or macro as well. -/
  | refused

/-- What is seen of an object that a link reads. -/
inductive Seen where
  /-- The object is a name of a value, which is read as it is. -/
  | bound (value : Value)
  /-- The object is folded before it is read. -/
  | folded (sight : Sight)

/-- The value that the literal of a value writes. -/
def written (value : Value) : Except Fault (Option Value) := do
  match ← Literal.ofValue? value with
  | none => return none
  | some node => Literal.value? node

/-- What a read of a known value shows. -/
def readOf (optional : Bool) (value : Value) (name : Text) : Except Fault Sight := do
  if optional && value.isNullish then return .shown (some .undefined)
  match ← Property.read value name with
  | .missing => return .refused
  | .unknownValue => return .shown none
  | .found property => return .shown (← written property)

namespace Seen

/-- What folding the object comes to. -/
def settled : Seen → Except Fault Sight
  | .bound value => do return .shown (← written value)
  | .folded sight => .ok sight

/-- The value that a link may read. -/
def value? : Seen → Option Value
  | .bound value => some value
  | .folded (.shown value) => value
  | .folded .refused => none

/-- What folding a link over the object comes to. -/
def read (optional : Bool) (seen : Seen) (name : Option Text) : Except Fault Sight :=
  match seen.value?, name with
  | some value, some name => readOf optional value name
  | _, _ => .ok (.shown none)

end Seen

/-- What is seen of a name of a value, of links over one, and of parentheses around these. -/
inductive Sees (walker : Walker) : Node → Seen → Prop where
  | name {flags : Flags} {place : Option Place} {children : List (Child Node)} {name : Text}
      {value : Value} : Name.of? (.tree .ident flags place children) = some name →
      Inert walker.context name → walker.context.fragments.binds name = false →
      walker.context.values.lookup name = some value →
      Sees walker (.tree .ident flags place children) (.bound value)
  | paren {flags : Flags} {place : Option Place} {inner : Child Node} {rest : List (Child Node)}
      {seen : Seen} {sight : Sight} : Sees walker inner.node seen → seen.settled = .ok sight →
      Sees walker (.tree .paren flags place (inner :: rest)) (.folded sight)
  | callable {flags : Flags} {place : Option Place} {children : List (Child Node)} {name : Text} :
      Name.of? (.tree .ident flags place children) = some name →
      walker.context.values.binds name = true →
      (walker.context.functions.binds name = true ∨ walker.context.macros.binds name = true) →
      walker.context.fragments.binds name = false →
      Sees walker (.tree .ident flags place children) (.folded .refused)
  | refused {kind : Kind} {flags : Flags} {place : Option Place} {object : Child Node}
      {rest : List (Child Node)} : (kind = .member ∨ kind = .subscript) →
      Sees walker object.node (.folded .refused) →
      Sees walker (.tree kind flags place (object :: rest)) (.folded .refused)
  | link {kind : Kind} {flags : Flags} {place : Option Place} {object : Child Node}
      {rest : List (Child Node)} {name : Option Text} {seen : Seen} {sight : Sight} :
      (kind = .member ∨ kind = .subscript) → Sees walker object.node seen →
      seen ≠ .folded .refused →
      Succeeds (memberKey walker ⟨kind, flags, place, object :: rest⟩) (·.2 = name) →
      seen.read flags.optional name = .ok sight →
      (sight = .shown none → ∃ folded, seen.settled = .ok folded) →
      Sees walker (.tree kind flags place (object :: rest)) (.folded sight)

/-- A step ends as a sight tells. -/
def Ends {α : Type} (shows : Option Value → α → Prop) (step : FoldM α) : Sight → Prop
  | .shown value => Succeeds step (shows value)
  | .refused => Refused step

def FoldedShows (value : Option Value) (folded : Folded) : Prop :=
  ∃ outcome : Outcome, folded = outcome.toFolded ∧ outcome.node.Shows value

def ChildShows (value : Option Value) (child : Child Node) : Prop :=
  child.node.Shows value

/-- What is shown by the node that a read leaves, if it leaves one. -/
def FoundShows (value : Option Value) (found : Option Node) : Prop :=
  (found = none ∧ value = none) ∨ ∃ node, found = some node ∧ node.Shows value

section Ends

variable {α β : Type} {shows : Option Value → α → Prop} {others : Option Value → β → Prop}
  {sight : Sight}

theorem Ends.bind {step : FoldM α} {next : α → FoldM β} (ends : Ends shows step sight)
    (goes : ∀ value result, sight = .shown value → shows value result →
      Succeeds (next result) (others value)) : Ends others (step >>= next) sight := by
  cases sight with
  | shown value => exact Succeeds.bind ends fun result is => goes value result rfl is
  | refused => exact Refused.bind ends

theorem Ends.after {step : FoldM β} {next : β → FoldM α} {middle : β → Prop}
    (begins : Succeeds step middle) (goes : ∀ value, middle value → Ends shows (next value) sight) :
    Ends shows (step >>= next) sight := by
  cases sight with
  | shown value => exact begins.bind goes
  | refused => exact begins.refused goes

theorem Ends.locating {node : Node} {step : FoldM α} (ends : Ends shows step sight) :
    Ends shows (FoldM.locating node step) sight := by
  cases sight with
  | shown value => exact Succeeds.locating ends
  | refused => exact Refused.locating ends

end Ends

variable {walker : Walker}

private theorem expressionOf_of_shows {former : Node} {seat : Option Nat} {outcome : Outcome}
    {value : Option Value} (shows : outcome.node.Shows value) :
    Slot.expressionOf former seat outcome = pure (outcome.inSeat seat) := by
  obtain ⟨kind, isKind, notStatement⟩ := shows.isExpression
  simp [Slot.expressionOf, isKind, notStatement]

theorem Ends.expression {child : Child Node} {sight : Sight}
    (ends : Ends FoldedShows (walker.walk child.node) sight)
    (present : child.node.isAbsent = false) :
    Ends ChildShows (Slot.expression walker child) sight := by
  simp only [Slot.expression, present, Bool.false_eq_true, if_false]
  apply ends.bind
  rintro value _ - ⟨outcome, rfl, shows⟩
  cases outcome with
  | same node | «instead» node =>
      simp only [Outcome.toFolded, expressionOf_of_shows shows]
      exact .of_pure (by simpa [ChildShows, node_inSeat] using shows)

/-! ### Folding a chain -/

theorem isExpression_ofValue? {value : Value} {node : Node}
    (isNode : Literal.ofValue? value = .ok (some node)) :
    ∃ kind, node.kind? = some kind ∧ kind.isStatement = false := by
  have makes : MakesLiterals fun node => ∃ kind, node.kind? = some kind ∧
      kind.isStatement = false :=
    ⟨fun _ _ => ⟨.literal, rfl, rfl⟩, ⟨.unary, rfl, rfl⟩, fun _ _ => ⟨.array, rfl, rfl⟩,
      fun _ _ => ⟨.object, rfl, rfl⟩⟩
  exact makes.ofValue? isNode

/-- The literal of a value shows what it writes; a value without a literal shows nothing. -/
theorem nodeOf_of_written {value : Value} {known : Option Value}
    (isWritten : written value = .ok known) :
    (Slot.nodeOf value = pure none ∧ known = none) ∨
      ∃ node, Slot.nodeOf value = pure (some node) ∧ node.Shows known := by
  obtain ⟨literal, isLiteral, isWritten⟩ := Calculation.of_bind_eq_ok isWritten
  have isNode : Slot.nodeOf value = pure literal := by
    rw [Slot.nodeOf, isLiteral]
    rfl
  cases literal with
  | none =>
      cases isWritten
      exact .inl ⟨isNode, rfl⟩
  | some node => exact .inr ⟨node, isNode, isExpression_ofValue? isLiteral, isWritten⟩

theorem isAbsent_of_sees {node : Node} {seen : Seen} (sees : Sees walker node seen) :
    node.isAbsent = false := by
  cases sees <;> rfl

/-- Only a name of a value is read as it is. -/
theorem value?_of_sees {node : Node} {seen : Seen} (sees : Sees walker node seen)
    (notRefused : seen ≠ .folded .refused) :
    Name.value? walker.context node =
      pure (match seen with
        | .bound value => some value
        | .folded _ => none) := by
  cases sees with
  | name named inert notFragment bound =>
      simp [Name.value?, Node.isKind, Node.kind?, named, bound, Name.refuseCallable,
        inert.notFunction, inert.notMacro, notFragment]
  | callable => exact absurd rfl notRefused
  | paren => rfl
  | refused isLink | link isLink =>
      rcases isLink with rfl | rfl
      · rfl
      · rfl

/-- A name of a function or macro is not taken for a value. -/
theorem refuseCallable_refused {context : Context} {name : Text} {node : Node}
    (callable : context.functions.binds name = true ∨ context.macros.binds name = true) :
    Refused (Name.refuseCallable context name node) := by
  unfold Name.refuseCallable
  by_cases isFunction : context.functions.binds name = true
  · simp only [isFunction, if_true]
    exact Refused.of_fail.bind
  · have isMacro := callable.resolve_left isFunction
    simp only [isFunction, isMacro, if_true]
    exact Refused.of_fail

/-- An object that cannot be folded is refused wherever it is looked at before it is folded. -/
theorem refused_of_sees {α : Type} {node : Node} {next : Option Value → FoldM α}
    (sees : Sees walker node (.folded .refused)) (folds : Refused (next none)) :
    Refused (Name.value? walker.context node >>= next) := by
  cases sees with
  | callable named values callable notFragment =>
      obtain ⟨value, bound⟩ := Option.isSome_iff_exists.mp values
      simp only [Name.value?, Node.isKind, Node.kind?, named, bound, beq_self_eq_true,
        Bool.not_true, Bool.false_eq_true, if_false]
      exact (refuseCallable_refused callable).bind.bind
  | paren => exact folds
  | refused isLink | link isLink =>
      rcases isLink with rfl | rfl
      · exact folds
      · exact folds

/-- Folding the name of a value gives its literal, if it has one. -/
theorem fold_name {branch : Branch} {name : Text} {value : Value} {known : Option Value}
    (isIdent : branch.kind = .ident) (named : Name.of? branch.toNode = some name)
    (inert : Inert walker.context name)
    (notFragment : walker.context.fragments.binds name = false)
    (bound : walker.context.values.lookup name = some value)
    (isWritten : written value = .ok known) :
    Succeeds (Name.fold walker branch) (FoldedShows known) := by
  have noFragment : walker.context.fragments.lookup name = none := by
    simpa [Table.binds] using notFragment
  simp only [Name.fold, named, Name.refuseCallable, inert.notFunction, inert.notMacro,
    noFragment, bound, Bool.false_eq_true, if_false, pure_bind]
  rcases nodeOf_of_written isWritten with ⟨noNode, rfl⟩ | ⟨node, isNode, shows⟩
  · simp only [noNode, pure_bind]
    apply Succeeds.of_report.bind
    intro _ _
    obtain ⟨kind, flags, place, children⟩ := branch
    cases isIdent
    exact .of_pure ⟨.same _, rfl, ⟨.ident, rfl, rfl⟩, rfl⟩
  · simp only [isNode, pure_bind]
    exact .of_pure ⟨.instead node, rfl, shows⟩

/-- Parentheses come to what is in them. -/
theorem foldParen_of_ends {flags : Flags} {place : Option Place} {inner : Child Node}
    {rest : List (Child Node)} {sight : Sight}
    (ends : Ends ChildShows (Slot.expression walker inner) sight) :
    Ends FoldedShows (Operation.foldParen walker ⟨.paren, flags, place, inner :: rest⟩) sight := by
  have first : Branch.child ⟨.paren, flags, place, inner :: rest⟩ 0 = pure inner := rfl
  simp only [Operation.foldParen, first, pure_bind]
  apply ends.bind
  intro value ⟨seat, node⟩ _ shows
  obtain ⟨found, isFound⟩ := Literal.isPrimitive_ok shows.known
  simp only [isFound, FoldM.calculate, pure_bind]
  by_cases isPrimitive : found = true
  · simp only [isPrimitive, if_true]
    exact .of_pure ⟨.instead node, rfl, shows⟩
  · simp only [isPrimitive]
    refine .of_pure ⟨.same _, rfl, ⟨.paren, rfl, rfl⟩, ?_⟩
    exact shows.known

/-- What a read of a known value leaves in place of a link. -/
theorem readProperty_of_readOf {branch : Branch} {value : Value} {name : Text} {sight : Sight}
    (isRead : readOf branch.flags.optional value name = .ok sight) :
    Ends FoundShows (readProperty branch value name) sight := by
  unfold readOf at isRead
  unfold readProperty
  by_cases isOptional : (branch.flags.optional && value.isNullish) = true
  · simp only [isOptional, if_true] at isRead ⊢
    cases isRead
    exact Succeeds.of_pure (.inr ⟨_, rfl, ⟨.unary, rfl, rfl⟩, rfl⟩)
  · simp only [isOptional] at isRead ⊢
    obtain ⟨reading, isReading, isRead⟩ := Calculation.of_bind_eq_ok isRead
    simp only [isReading, FoldM.calculate, pure_bind]
    cases reading with
    | missing =>
        cases isRead
        exact Refused.of_fail
    | unknownValue =>
        cases isRead
        exact Succeeds.of_pure (.inl ⟨rfl, rfl⟩)
    | found property =>
        obtain ⟨known, isWritten, isRead⟩ := Calculation.of_bind_eq_ok isRead
        cases isRead
        rcases nodeOf_of_written isWritten with ⟨noNode, rfl⟩ | ⟨node, isNode, shows⟩
        · simp only [noNode, pure_bind]
          apply Succeeds.of_report.bind
          intro _ _
          exact .of_pure (.inl ⟨rfl, rfl⟩)
        · simp only [isNode, pure_bind]
          exact Succeeds.of_pure (.inr ⟨node, rfl, shows⟩)

/-- A receiver whose object can be folded has the value that is seen of the object, and is left as
the folded object. -/
theorem receiver_of_sees {object : Child Node} {seen : Seen} (sees : Sees walker object.node seen)
    (notRefused : seen ≠ .folded .refused)
    (folds : ∀ sight, seen.settled = .ok sight →
      Ends ChildShows (Slot.expression walker object) sight) :
    Succeeds (receiver walker object) fun read => read.value = seen.value? ∧
      ((∃ sight, seen.settled = .ok sight) → Succeeds (read.settle walker) fun _ => True) := by
  simp only [receiver, value?_of_sees sees notRefused, pure_bind]
  cases seen with
  | bound value =>
      refine .of_pure ⟨rfl, ?_⟩
      rintro ⟨sight, settled⟩
      obtain ⟨known, _, isSight⟩ := Calculation.of_bind_eq_ok settled
      cases isSight
      exact (folds _ settled).mono fun _ _ => trivial
  | folded sight =>
      cases sight with
      | refused => exact absurd rfl notRefused
      | shown value =>
          apply Succeeds.bind (folds _ rfl)
          intro child shows
          have known : Slot.valueOf child.node = pure value := by
            rw [Slot.valueOf, shows.known]
            rfl
          simp only [known, pure_bind]
          exact .of_pure ⟨rfl, fun _ => .of_pure trivial⟩

/-- A link comes to what it reads. -/
theorem member_of_sees {kind : Kind} {flags : Flags} {place : Option Place} {object : Child Node}
    {rest : List (Child Node)} {name : Option Text} {seen : Seen} {sight : Sight}
    (isLink : kind = .member ∨ kind = .subscript) (sees : Sees walker object.node seen)
    (notRefused : seen ≠ .folded .refused)
    (reads : Succeeds (memberKey walker ⟨kind, flags, place, object :: rest⟩) (·.2 = name))
    (isRead : seen.read flags.optional name = .ok sight)
    (settles : sight = .shown none → ∃ folded, seen.settled = .ok folded)
    (folds : ∀ sight, seen.settled = .ok sight →
      Ends ChildShows (Slot.expression walker object) sight) :
    Ends FoldedShows (member walker ⟨kind, flags, place, object :: rest⟩) sight := by
  have kept (children : List (Child Node)) :
      (Node.tree kind flags place children).Shows none := by
    rcases isLink with rfl | rfl
    · exact ⟨⟨.member, rfl, rfl⟩, rfl⟩
    · exact ⟨⟨.subscript, rfl, rfl⟩, rfl⟩
  have first : Branch.child ⟨kind, flags, place, object :: rest⟩ 0 = pure object := rfl
  simp only [member, first, pure_bind]
  apply Ends.after (receiver_of_sees sees notRefused folds)
  rintro read ⟨isValue, canSettle⟩
  have stays (nothing : sight = .shown none) (key : Child Node) :
      Succeeds (do
          let object ← read.settle walker
          return Branch.keep ⟨kind, flags, place, object :: rest⟩
            (((object :: rest).set 0 object).set 1 key))
        (FoldedShows none) := by
    apply (canSettle (settles nothing)).bind
    intro object _
    exact .of_pure ⟨.same _, rfl, kept _⟩
  apply Ends.after reads
  rintro ⟨key, other⟩ isName
  obtain rfl : other = name := isName
  rw [isValue]
  unfold Seen.read at isRead
  -- Both sides read the property only of a known value under a known name.
  cases found : seen.value? with
  | none =>
      rw [found] at isRead
      cases isRead
      exact stays rfl key
  | some value =>
      rw [found] at isRead
      cases other with
      | none =>
          cases isRead
          exact stays rfl key
      | some name =>
          have read :=
            @readProperty_of_readOf ⟨kind, flags, place, object :: rest⟩ value name sight isRead
          apply read.bind
          rintro value _ isSight (⟨rfl, rfl⟩ | ⟨node, rfl, shows⟩)
          · exact stays isSight key
          · exact .of_pure ⟨.instead node, rfl, shows⟩

/-- Folding a chain comes to what is seen of it. -/
theorem walk_of_sees (steps : walker.Steps) {node : Node} {seen : Seen} {sight : Sight}
    (sees : Sees walker node seen) (settled : seen.settled = .ok sight) :
    Ends FoldedShows (walker.walk node) sight := by
  induction sees generalizing sight with
  | @name flags place children name value named inert notFragment bound =>
      obtain ⟨known, isWritten, isSight⟩ := Calculation.of_bind_eq_ok settled
      cases isSight
      have walked := steps ⟨.ident, flags, place, children⟩
      rw [Branch.toNode] at walked
      rw [walked]
      apply Ends.locating
      exact fold_name rfl named inert notFragment bound isWritten
  | @paren flags place inner rest seen inside sees isSight induction =>
      cases settled
      have walked := steps ⟨.paren, flags, place, inner :: rest⟩
      rw [Branch.toNode] at walked
      rw [walked]
      apply Ends.locating
      exact foldParen_of_ends ((induction isSight).expression (isAbsent_of_sees sees))
  | @callable flags place children name named values callable notFragment =>
      cases settled
      have walked := steps ⟨.ident, flags, place, children⟩
      rw [Branch.toNode] at walked
      rw [walked]
      apply Ends.locating
      show Refused (Name.fold walker ⟨.ident, flags, place, children⟩)
      simp only [Name.fold, Branch.toNode, named]
      exact (refuseCallable_refused callable).bind
  | @refused kind flags place object rest isLink sees induction =>
      cases settled
      have walked := steps ⟨kind, flags, place, object :: rest⟩
      rw [Branch.toNode] at walked
      rw [walked]
      apply Ends.locating
      have folds : Refused (Slot.expression walker object) :=
        (induction rfl).expression (isAbsent_of_sees sees)
      have first : Branch.child ⟨kind, flags, place, object :: rest⟩ 0 = pure object := rfl
      have stepped : Fold.step walker ⟨kind, flags, place, object :: rest⟩ =
          member walker ⟨kind, flags, place, object :: rest⟩ := by
        rcases isLink with rfl | rfl <;> rfl
      simp only [stepped, member, first, pure_bind, receiver]
      exact (refused_of_sees sees folds.bind).bind
  | @link kind flags place object rest name seen inside isLink sees notRefused reads isRead
      settles induction =>
      cases settled
      have walked := steps ⟨kind, flags, place, object :: rest⟩
      rw [Branch.toNode] at walked
      rw [walked]
      apply Ends.locating
      have stepped : Fold.step walker ⟨kind, flags, place, object :: rest⟩ =
          member walker ⟨kind, flags, place, object :: rest⟩ := by
        rcases isLink with rfl | rfl <;> rfl
      rw [stepped]
      exact member_of_sees isLink sees notRefused reads isRead settles fun _ isSight =>
        (induction isSight).expression (isAbsent_of_sees sees)

end Chain

end ScriptFold
