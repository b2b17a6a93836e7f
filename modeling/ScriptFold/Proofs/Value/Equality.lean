import ScriptFold.Fault
import ScriptFold.Proofs.Number.Recognition
import ScriptFold.Value.Coercion

/-!
# Equality with coercion

Two values of different types are compared in rounds.  A round gives an answer, or it converts
one operand and leaves the comparison to the next round: truth values become numbers, and
aggregates become texts.  Every conversion leaves less to convert, so there are at most three
rounds, and they come to what `Value.looseEquals` calculates at once.  The text of an aggregate
takes frames of the stack, so the comparison has an answer on a stack that has them.

An aggregate is equal to itself only.  A value alone does not show which aggregate it is, so the
operands are values as they are held, with the object that an aggregate is.
-/

namespace ScriptFold

namespace Num

private theorem order?_swap_double (x y : Double) : Double.order? y x =
    (x.order? y).map Ordering.swap := by
  cases x with
  | nan => cases y <;> rfl
  | infinity negative =>
      cases y with
      | nan => rfl
      | infinity other => cases negative <;> cases other <;> rfl
      | finite sign rank => cases negative <;> rfl
  | finite sign rank =>
      cases y with
      | nan => rfl
      | infinity negative => cases negative <;> rfl
      | finite otherSign otherRank =>
          simp only [Double.order?, Double.units?, Option.map_some]
          exact congrArg some Std.OrientedCmp.eq_swap

private theorem order?_swap (a b : Num) : order? b a = (order? a b).map Ordering.swap := by
  cases a with
  | int m =>
      cases b with
      | int n => exact congrArg some Std.OrientedCmp.eq_swap
      | float y => rfl
  | float x =>
      cases b with
      | int n =>
          cases isOrder : order?.orderInt n x with
          | none => simp only [order?, isOrder, Option.map_none]
          | some order => simp only [order?, isOrder, Option.map_some, Ordering.swap_swap]
      | float y => exact order?_swap_double x y

theorem equals_comm (a b : Num) : a.equals b = b.equals a := by
  rw [equals, equals, order?_swap a b]
  cases order? a b with
  | none => rfl
  | some order => cases order <;> rfl

end Num

namespace Value

/-- Arrays and dictionaries. -/
def isAggregate : Value → Bool
  | .list _ | .tuple _ | .record _ => true
  | _ => false

theorem strictEquals_symm {a b : Value} : strictEquals a b = true → strictEquals b a = true := by
  fun_cases strictEquals a b
  case case1 m n =>
    intro equal
    rwa [strictEquals, Num.equals_comm]
  case case2 | case3 | case7 =>
    intro equal
    rwa [strictEquals, Bool.beq_comm]
  case case4 | case5 | case6 => exact id
  case case8 => exact nofun

theorem strictEquals_comm (a b : Value) : strictEquals a b = strictEquals b a :=
  Bool.eq_iff_iff.mpr ⟨strictEquals_symm, strictEquals_symm⟩

/-- Values of different types are not equal without coercion. -/
theorem typeOf_of_strictEquals {a b : Value} : strictEquals a b = true → a.typeOf = b.typeOf := by
  fun_cases strictEquals a b
  case case8 => exact nofun
  all_goals exact fun _ => rfl

theorem isNullish_of_strictEquals {a b : Value} :
    strictEquals a b = true → a.isNullish = b.isNullish := by
  fun_cases strictEquals a b
  case case8 => exact nofun
  all_goals exact fun _ => rfl

/-- How two values that need no conversion compare. -/
def meet : Value → Value → Except Fault Bool
  | .num x, .num y => .ok (x.equals y)
  | .str s, .str t => .ok (s == t)
  | .num x, .str t => do return x.equals (← Numeral.ofString t)
  | .str s, .num y => do return (← Numeral.ofString s).equals y
  | _, _ => .ok false

theorem meet_comm (x y : Value) : meet x y = meet y x := by
  cases x with
  | num m =>
      cases y with
      | num n => rw [meet, meet, Num.equals_comm]
      | str t => simp only [meet, Num.equals_comm m]
      | undefined | null | bool | list | tuple | record | function | sealed => rfl
  | str s =>
      cases y with
      | num n => simp only [meet, Num.equals_comm n]
      | str t => rw [meet, meet, Bool.beq_comm]
      | undefined | null | bool | list | tuple | record | function | sealed => rfl
  | undefined | null | bool | list | tuple | record | function | sealed =>
      cases y with
      | num | str | undefined | null | bool | list | tuple | record | function | sealed => rfl

section Comparing

variable {a b : Value}

theorem looseEquals_of_nullish (nullish : (a.isNullish || b.isNullish) = true) :
    looseEquals a b = .ok (a.isNullish && b.isNullish) :=
  if_pos nullish

theorem looseEquals_of_alike (notNullish : (a.isNullish || b.isNullish) = false)
    (alike : a.typeOf = b.typeOf) : looseEquals a b = .ok (strictEquals a b) := by
  unfold looseEquals
  rw [notNullish, if_neg Bool.false_ne_true, if_pos alike]

/-- Values of different types are converted and then compared. -/
theorem looseEquals_of_different (notNullish : (a.isNullish || b.isNullish) = false)
    (different : a.typeOf ≠ b.typeOf) :
    looseEquals a b = (do meet (← toComparable a) (← toComparable b)) := by
  unfold looseEquals
  rw [notNullish, if_neg Bool.false_ne_true, if_neg different]
  cases toComparable a with
  | error fault => rfl
  | ok x =>
      cases toComparable b with
      | error fault => rfl
      | ok y => cases x <;> cases y <;> rfl

/-- Numbers and texts need no conversion, whatever they are compared with. -/
theorem looseEquals_number (x : Num) (b : Value) :
    looseEquals (.num x) b = (do meet (.num x) (← toComparable b)) := by
  cases b with
  | undefined | null | num => rfl
  | bool | str | list | tuple | record | function | sealed =>
      exact looseEquals_of_different rfl nofun

theorem looseEquals_text (s : Text) (b : Value) :
    looseEquals (.str s) b = (do meet (.str s) (← toComparable b)) := by
  cases b with
  | undefined | null | str => rfl
  | bool | num | list | tuple | record | function | sealed =>
      exact looseEquals_of_different rfl nofun

/-- Only aggregates have a conversion that may have a fault. -/
theorem toComparable_ok (notAggregate : a.isAggregate = false) :
    ∃ x, toComparable a = .ok x := by
  cases a with
  | list | tuple | record => cases notAggregate
  | undefined | null | bool | num | str | function | sealed => exact ⟨_, rfl⟩

/-- Other values than truth values and aggregates stand for themselves. -/
theorem toComparable_self (notAggregate : a.isAggregate = false) (notBool : ∀ p, a ≠ .bool p) :
    toComparable a = .ok a := by
  cases a with
  | bool p => exact absurd rfl (notBool p)
  | list | tuple | record => cases notAggregate
  | undefined | null | num | str | function | sealed => rfl

/-- Of two types, only a number and a text may be equal without a conversion. -/
theorem meet_of_different (different : a.typeOf ≠ b.typeOf)
    (notNumberText : ∀ n text, a = .num n → b ≠ .str text)
    (notTextNumber : ∀ text n, a = .str text → b ≠ .num n) : meet a b = .ok false := by
  fun_cases meet a b
  case case1 | case2 => exact absurd rfl different
  case case3 n text => exact absurd rfl (notNumberText n text rfl)
  case case4 text n => exact absurd rfl (notTextNumber text n rfl)
  case case5 => rfl

theorem typeOf_aggregate (isAggregate : a.isAggregate = true) : a.typeOf = .object := by
  cases a with
  | list | tuple | record => rfl
  | undefined | null | bool | num | str | function | sealed => cases isAggregate

/-- Of two values of different types at most one is an aggregate. -/
theorem not_isAggregate_of_different (different : a.typeOf ≠ b.typeOf)
    (isAggregate : a.isAggregate = true) : b.isAggregate = false := by
  by_contra both
  have bothAggregates : b.isAggregate = true := by simpa using both
  exact different ((typeOf_aggregate isAggregate).trans (typeOf_aggregate bothAggregates).symm)

end Comparing

/-- The order of the operands does not count.  Of two values of different types at most one is
an aggregate, so that it does not matter either which of them is converted first. -/
theorem looseEquals_comm (a b : Value) : looseEquals a b = looseEquals b a := by
  have nullishComm : (b.isNullish || a.isNullish) = (a.isNullish || b.isNullish) :=
    Bool.or_comm _ _
  cases nullish : a.isNullish || b.isNullish with
  | true =>
      rw [looseEquals_of_nullish nullish, looseEquals_of_nullish (nullishComm.trans nullish),
        Bool.and_comm]
  | false =>
      have notNullish : (b.isNullish || a.isNullish) = false := nullishComm.trans nullish
      by_cases alike : a.typeOf = b.typeOf
      · rw [looseEquals_of_alike nullish alike, looseEquals_of_alike notNullish alike.symm,
          strictEquals_comm]
      · rw [looseEquals_of_different nullish alike,
          looseEquals_of_different notNullish (Ne.symm alike)]
        cases isAggregate : a.isAggregate with
        | false =>
            obtain ⟨x, isComparable⟩ := toComparable_ok isAggregate
            simp only [isComparable, Calculation.ok_bind, meet_comm x]
        | true =>
            obtain ⟨y, isComparable⟩ :=
              toComparable_ok (not_isAggregate_of_different alike isAggregate)
            simp only [isComparable, Calculation.ok_bind, meet_comm y]

theorem looseEquals_of_strictEquals {a b : Value} (equal : strictEquals a b = true) :
    looseEquals a b = .ok true := by
  have sameNullish := isNullish_of_strictEquals equal
  cases nullish : a.isNullish || b.isNullish with
  | true =>
      rw [looseEquals_of_nullish nullish, ← sameNullish]
      rw [← sameNullish, Bool.or_self] at nullish
      rw [nullish]
      rfl
  | false => rw [looseEquals_of_alike nullish (typeOf_of_strictEquals equal), equal]

section Conversions

variable {a b x : Value}

/-- Numbers and texts. -/
def IsPlain (x : Value) : Prop :=
  (∃ n, x = .num n) ∨ ∃ text, x = .str text

/-- How much of a value is left to convert. -/
def weight : Value → Nat
  | .bool _ | .list _ | .tuple _ | .record _ => 1
  | _ => 0

theorem weight_aggregate (isAggregate : a.isAggregate = true) : a.weight = 1 := by
  cases a with
  | list | tuple | record => rfl
  | undefined | null | bool | num | str | function | sealed => cases isAggregate

theorem weight_le_one (a : Value) : a.weight ≤ 1 := by
  cases a with
  | bool | list | tuple | record => exact Nat.le_refl 1
  | undefined | null | num | str | function | sealed => exact Nat.zero_le 1

theorem IsPlain.weight (plain : IsPlain x) : x.weight = 0 := by
  rcases plain with ⟨n, rfl⟩ | ⟨text, rfl⟩ <;> rfl

theorem IsPlain.not_isAggregate (plain : IsPlain x) : x.isAggregate = false := by
  rcases plain with ⟨n, rfl⟩ | ⟨text, rfl⟩ <;> rfl

theorem looseEquals_of_isPlain (plain : IsPlain x) (b : Value) :
    looseEquals x b = (do meet x (← toComparable b)) := by
  rcases plain with ⟨n, rfl⟩ | ⟨text, rfl⟩
  · exact looseEquals_number n b
  · exact looseEquals_text text b

/-- The conversion of an aggregate is its text. -/
theorem toComparable_aggregate (isAggregate : a.isAggregate = true) :
    toComparable a = a.toText.map .str ∧ toPrimitive a = a.toText.map .str := by
  cases a with
  | list | tuple | record => exact ⟨rfl, rfl⟩
  | undefined | null | bool | num | str | function | sealed => cases isAggregate

end Conversions

section Limits

variable {α β : Type}

/-- A calculation has no fault but an integer beyond the doubles. -/
def Limited (result : Except Fault α) : Prop :=
  ∀ fault, result = .error fault → fault = .tooLarge

theorem Limited.of_ok (value : α) : Limited (.ok value) := nofun

theorem Limited.bind {result : Except Fault α} {next : α → Except Fault β}
    (limited : Limited result) (later : ∀ value, Limited (next value)) :
    Limited (result >>= next) := by
  cases result with
  | error fault =>
      intro other failed
      cases failed
      exact limited fault rfl
  | ok value => exact later value

theorem Limited.map {result : Except Fault α} (limited : Limited result) (f : α → β) :
    Limited (result.map f) := by
  cases result with
  | error fault =>
      intro other failed
      cases failed
      exact limited fault rfl
  | ok value => exact .of_ok (f value)

theorem limited_ofString (text : Text) : Limited (Numeral.ofString text) :=
  fun _ failed => Numeral.fault_of_ofString failed

private theorem limited_scriptText (n : Num) : Limited n.scriptText := by
  cases n with
  | float x => exact .of_ok _
  | int n =>
      rw [Num.scriptText]
      split
      · exact .of_ok _
      · refine .map ?_ _
        simp only [Num.toDouble]
        split
        · intro fault failed
          cases failed
          rfl
        · exact .of_ok _

private theorem toTexts_cons (item : Value) (rest : List Value) :
    toTexts (item :: rest) = ((if item.isNullish then .ok [] else toText item) >>=
      fun first => toTexts rest >>= fun others => .ok (first :: others)) := by
  cases item <;> rfl

mutual

theorem limited_toText (value : Value) : Limited value.toText := by
  match value with
  | .undefined | .null | .bool _ | .str _ | .function _ | .record _ | .sealed => exact .of_ok _
  | .num n => exact (limited_scriptText n).map _
  | .list items | .tuple items => exact (limited_toTexts items).bind fun _ => .of_ok _

theorem limited_toTexts (items : List Value) : Limited (toTexts items) := by
  match items with
  | [] => exact .of_ok _
  | item :: rest =>
      have first : Limited (if item.isNullish then .ok [] else toText item) := by
        split
        · exact .of_ok _
        · exact limited_toText item
      rw [toTexts_cons]
      exact first.bind fun _ => (limited_toTexts rest).bind fun _ => .of_ok _

end

theorem limited_toComparable (value : Value) : Limited value.toComparable := by
  cases value with
  | list | tuple | record =>
      rw [(toComparable_aggregate rfl).1]
      exact (limited_toText _).map _
  | undefined | null | bool | num | str | function | sealed => exact .of_ok _

private theorem limited_meet (x y : Value) : Limited (meet x y) := by
  unfold meet
  split
  case h_3 n text => exact (limited_ofString text).bind fun _ => .of_ok _
  case h_4 text n => exact (limited_ofString text).bind fun _ => .of_ok _
  all_goals exact .of_ok _

theorem limited_looseEquals (a b : Value) : Limited (looseEquals a b) := by
  cases nullish : a.isNullish || b.isNullish with
  | true =>
      rw [looseEquals_of_nullish nullish]
      exact .of_ok _
  | false =>
      by_cases alike : a.typeOf = b.typeOf
      · rw [looseEquals_of_alike nullish alike]
        exact .of_ok _
      · rw [looseEquals_of_different nullish alike]
        exact (limited_toComparable a).bind fun x =>
          (limited_toComparable b).bind fun y => limited_meet x y

end Limits

section Answers

variable {a b x y : Value}

/-- A value has a text, and the text can be read as a number. -/
def IsReadable (a : Value) : Prop :=
  ∃ text n, a.toText = .ok text ∧ Numeral.ofString text = .ok n

theorem IsReadable.comparable (readable : IsReadable a) :
    ∃ x, toComparable a = .ok x ∧ ∀ text, x = .str text → ∃ n, Numeral.ofString text = .ok n := by
  obtain ⟨text, n, isText, isNumber⟩ := readable
  cases a with
  | list | tuple | record =>
      refine ⟨.str text, ?_, fun _ same => Value.str.inj same ▸ ⟨n, isNumber⟩⟩
      rw [(toComparable_aggregate rfl).1, isText]
      rfl
  | str s =>
      cases isText
      exact ⟨_, rfl, fun _ same => Value.str.inj same ▸ ⟨n, isNumber⟩⟩
  | undefined | null | bool | num | function | sealed => exact ⟨_, rfl, nofun⟩

private theorem meet_answers (first : ∀ text, x = .str text → ∃ n, Numeral.ofString text = .ok n)
    (second : ∀ text, y = .str text → ∃ n, Numeral.ofString text = .ok n) :
    ∃ equal, meet x y = .ok equal := by
  fun_cases meet x y
  case case3 n text =>
    obtain ⟨read, isRead⟩ := second text rfl
    exact ⟨n.equals read, by rw [isRead]; rfl⟩
  case case4 text n =>
    obtain ⟨read, isRead⟩ := first text rfl
    exact ⟨read.equals n, by rw [isRead]; rfl⟩
  all_goals exact ⟨_, rfl⟩

/-- The comparison of readable values has an answer. -/
theorem looseEquals_answers (first : IsReadable a) (second : IsReadable b) :
    ∃ equal, looseEquals a b = .ok equal := by
  cases nullish : a.isNullish || b.isNullish with
  | true => exact ⟨_, looseEquals_of_nullish nullish⟩
  | false =>
      by_cases alike : a.typeOf = b.typeOf
      · exact ⟨_, looseEquals_of_alike nullish alike⟩
      · obtain ⟨x, isFirst, firstReads⟩ := first.comparable
        obtain ⟨y, isSecond, secondReads⟩ := second.comparable
        rw [looseEquals_of_different nullish alike, isFirst, isSecond]
        exact meet_answers firstReads secondReads

end Answers

end Value

/-- A value as it is held.  An aggregate is an object, which is told from others by a number. -/
structure Held where
  value : Value
  object : Nat

namespace Held

/-- Whether two values are one and the same aggregate. -/
def isSame (a b : Held) : Bool :=
  a.value.isAggregate && b.value.isAggregate && a.object == b.object

/-- Equality without coercion, in which an aggregate equals itself. -/
def strictEquals (a b : Held) : Bool :=
  isSame a b || Value.strictEquals a.value b.value

/-- Equality with coercion, in which an aggregate equals itself. -/
def looseEquals (a b : Held) : Except Fault Bool :=
  if isSame a b then .ok true else Value.looseEquals a.value b.value

def comparisonFrames (a b : Held) : Nat :=
  Value.comparisonFrames a.value b.value

/-- Equality with coercion, on a stack of some frames. -/
def looseEqualsWithin (frames : Nat) (a b : Held) : Except Fault Bool :=
  Stack.within .stackExhausted frames (comparisonFrames a b) (looseEquals a b)

/-- The number of a value, held in its place. -/
def asNumber (held : Held) : Except Fault Held := do
  return ⟨.num (← held.value.toNumber), held.object⟩

/-- The text of an aggregate, held in its place. -/
def asPrimitive (held : Held) : Except Fault Held := do
  return ⟨← held.value.toPrimitive, held.object⟩

/-- What a round of a comparison comes to: an answer, or the operands of the next round. -/
inductive Round where
  | answer (equal : Bool)
  | again (a b : Held)

/-- A round of a comparison with coercion: the first rule that applies. -/
def round (a b : Held) : Except Fault Round :=
  if a.value.isNullish || b.value.isNullish then
    .ok (.answer (a.value.isNullish && b.value.isNullish))
  else if a.value.typeOf = b.value.typeOf then
    .ok (.answer (strictEquals a b))
  else
    match a.value, b.value with
    | .bool _, _ => do return .again (← a.asNumber) b
    | _, .bool _ => do return .again a (← b.asNumber)
    | .num x, .str t => do return .answer (x.equals (← Numeral.ofString t))
    | .str s, .num y => do return .answer ((← Numeral.ofString s).equals y)
    | x, y =>
        if x.isAggregate && !y.isAggregate then do return .again (← a.asPrimitive) b
        else if y.isAggregate && !x.isAggregate then do return .again a (← b.asPrimitive)
        else .ok (.answer false)

/-- A comparison ends after a number of rounds. -/
inductive Settles : Nat → Held → Held → Except Fault Bool → Prop
  | answer {a b : Held} {equal : Bool} (rounds : round a b = .ok (.answer equal)) :
      Settles 1 a b (.ok equal)
  | fault {a b : Held} {fault : Fault} (rounds : round a b = .error fault) :
      Settles 1 a b (.error fault)
  | again {count : Nat} {a b c d : Held} {outcome : Except Fault Bool}
      (rounds : round a b = .ok (.again c d)) (later : Settles count c d outcome) :
      Settles (count + 1) a b outcome

/-- What is left to convert of two operands. -/
def weight (a b : Held) : Nat :=
  a.value.weight + b.value.weight

/-- A round goes on as the whole comparison does, and leaves less to convert. -/
inductive Follows (a b : Held) : Except Fault Round → Prop
  | answer {equal : Bool} (isOutcome : looseEquals a b = .ok equal) :
      Follows a b (.ok (.answer equal))
  | fault {fault : Fault} (isOutcome : looseEquals a b = .error fault) :
      Follows a b (.error fault)
  | again {c d : Held} (same : looseEquals a b = looseEquals c d)
      (lighter : weight c d < weight a b) : Follows a b (.ok (.again c d))

private theorem isSame_comm (a b : Held) : isSame a b = isSame b a := by
  rw [isSame, isSame, Bool.and_comm a.value.isAggregate, Bool.beq_comm]

/-- One and the same aggregate has one type. -/
theorem not_isSame_of_different {a b : Held} (different : a.value.typeOf ≠ b.value.typeOf) :
    isSame a b = false := by
  rw [isSame]
  cases isAggregate : a.value.isAggregate with
  | false => rfl
  | true => rw [Value.not_isAggregate_of_different different isAggregate]; rfl

theorem looseEquals_of_not_isSame {a b : Held} (notSame : isSame a b = false) :
    looseEquals a b = Value.looseEquals a.value b.value := by
  rw [looseEquals, notSame, if_neg Bool.false_ne_true]

theorem looseEquals_comm (a b : Held) : looseEquals a b = looseEquals b a := by
  rw [looseEquals, looseEquals, isSame_comm, Value.looseEquals_comm]

theorem looseEquals_of_strictEquals {a b : Held} (equal : strictEquals a b = true) :
    looseEquals a b = .ok true := by
  rw [looseEquals]
  split
  · rfl
  · rename_i notSame
    rw [strictEquals, Bool.or_eq_true] at equal
    exact Value.looseEquals_of_strictEquals (equal.resolve_left notSame)

/-- A conversion of an operand for which a round asks. -/
inductive Converts (held : Held) : Except Fault Held → Prop
  | into {x : Value} (plain : x.IsPlain) (isComparable : held.value.toComparable = .ok x)
      (weighs : held.value.weight = 1) : Converts held (.ok ⟨x, held.object⟩)
  | fails {fault : Fault} (isComparable : held.value.toComparable = .error fault) :
      Converts held (.error fault)

theorem asNumber_converts {held : Held} {b : Bool} (isBool : held.value = .bool b) :
    Converts held held.asNumber := by
  obtain ⟨value, object⟩ := held
  cases isBool
  exact .into (.inl ⟨_, rfl⟩) rfl rfl

theorem asPrimitive_converts {held : Held} (isAggregate : held.value.isAggregate = true) :
    Converts held held.asPrimitive := by
  obtain ⟨isComparable, isPrimitive⟩ := Value.toComparable_aggregate isAggregate
  rw [asPrimitive, isPrimitive]
  cases isText : held.value.toText with
  | error fault =>
      rw [isText] at isComparable
      exact .fails isComparable
  | ok text =>
      rw [isText] at isComparable
      exact .into (.inr ⟨text, rfl⟩) isComparable (Value.weight_aggregate isAggregate)

section Rounds

variable {a b : Held} (notNullish : (a.value.isNullish || b.value.isNullish) = false)
  (different : a.value.typeOf ≠ b.value.typeOf)
include notNullish different

theorem looseEquals_of_different : looseEquals a b =
    (do Value.meet (← a.value.toComparable) (← b.value.toComparable)) := by
  rw [looseEquals_of_not_isSame (not_isSame_of_different different),
    Value.looseEquals_of_different notNullish different]

/-- A round that converts the first operand. -/
theorem follows_first {result : Except Fault Held} (converts : Converts a result) :
    Follows a b (do return .again (← result) b) := by
  cases converts with
  | fails isComparable =>
      refine .fault ?_
      rw [looseEquals_of_different notNullish different, isComparable]
      rfl
  | @into x plain isComparable weighs =>
      refine .again ?_ ?_
      · have notSame : isSame ⟨x, a.object⟩ b = false := by
          rw [isSame, plain.not_isAggregate, Bool.false_and, Bool.false_and]
        rw [looseEquals_of_different notNullish different, isComparable,
          looseEquals_of_not_isSame notSame, Value.looseEquals_of_isPlain plain]
        rfl
      · rw [weight, weight, plain.weight, weighs]
        exact Nat.add_lt_add_right Nat.zero_lt_one _

/-- A round that converts the second operand goes on as one that converts the first does, with
the operands exchanged. -/
theorem follows_second {result : Except Fault Held} (converts : Converts b result) :
    Follows a b (do return .again a (← result)) := by
  have notNullishToo : (b.value.isNullish || a.value.isNullish) = false := by
    rwa [Bool.or_comm]
  have exchanged := follows_first notNullishToo (Ne.symm different) converts
  cases result with
  | error fault =>
      cases exchanged with
      | fault isOutcome => exact .fault ((looseEquals_comm a b).trans isOutcome)
  | ok c =>
      cases exchanged with
      | again same lighter =>
          refine .again ?_ ?_
          · rw [looseEquals_comm a b, same, looseEquals_comm]
          · rw [weight, weight] at lighter ⊢
            omega

end Rounds

theorem looseEquals_of_alike {a b : Held}
    (notNullish : (a.value.isNullish || b.value.isNullish) = false)
    (alike : a.value.typeOf = b.value.typeOf) : looseEquals a b = .ok (strictEquals a b) := by
  rw [looseEquals, strictEquals, Value.looseEquals_of_alike notNullish alike]
  cases isSame a b <;> rfl

theorem looseEquals_of_nullish {a b : Held}
    (nullish : (a.value.isNullish || b.value.isNullish) = true) :
    looseEquals a b = .ok (a.value.isNullish && b.value.isNullish) := by
  have notSame : isSame a b = false := by
    obtain ⟨x, i⟩ := a
    obtain ⟨y, j⟩ := b
    cases x <;> cases y <;> first | rfl | cases nullish
  rw [looseEquals_of_not_isSame notSame, Value.looseEquals_of_nullish nullish]

/-- Values of different types that no rule converts are not equal. -/
theorem looseEquals_of_unconverted {a b : Held}
    (notNullish : (a.value.isNullish || b.value.isNullish) = false)
    (different : a.value.typeOf ≠ b.value.typeOf)
    (firstNotBool : ∀ p, a.value ≠ .bool p) (secondNotBool : ∀ p, b.value ≠ .bool p)
    (firstNotAggregate : a.value.isAggregate = false)
    (secondNotAggregate : b.value.isAggregate = false) :
    looseEquals a b = Value.meet a.value b.value := by
  rw [looseEquals_of_different notNullish different,
    Value.toComparable_self firstNotAggregate firstNotBool,
    Value.toComparable_self secondNotAggregate secondNotBool]
  rfl

/-- A round that reads the number of a text and has its answer. -/
theorem follows_numeral {a b : Held} {text : Text} {answer : Num → Bool}
    (isOutcome : looseEquals a b = (do return answer (← Numeral.ofString text))) :
    Follows a b (do return .answer (answer (← Numeral.ofString text))) := by
  cases read : Numeral.ofString text with
  | error fault =>
      rw [read] at isOutcome
      exact .fault isOutcome
  | ok n =>
      rw [read] at isOutcome
      exact .answer isOutcome

private theorem round_follows (a b : Held) : Follows a b (round a b) := by
  cases nullish : a.value.isNullish || b.value.isNullish with
  | true =>
      rw [round, nullish, if_pos rfl]
      exact .answer (looseEquals_of_nullish nullish)
  | false =>
      by_cases different : a.value.typeOf = b.value.typeOf
      case pos =>
        rw [round, nullish, if_neg Bool.false_ne_true, if_pos different]
        exact .answer (looseEquals_of_alike nullish different)
      rw [round, nullish, if_neg Bool.false_ne_true, if_neg different]
      split
      case h_1 isBool => exact follows_first nullish different (asNumber_converts isBool)
      case h_2 isBool _ => exact follows_second nullish different (asNumber_converts isBool)
      case h_3 n text isNumber isText =>
        refine follows_numeral ?_
        rw [looseEquals_of_different nullish different, isNumber, isText]
        rfl
      case h_4 text n isText isNumber =>
        refine follows_numeral ?_
        rw [looseEquals_of_different nullish different, isText, isNumber]
        rfl
      case h_5 firstNotBool secondNotBool notNumberText notTextNumber =>
        cases first : a.value.isAggregate with
        | true =>
            rw [Value.not_isAggregate_of_different different first]
            exact follows_first nullish different (asPrimitive_converts first)
        | false =>
            cases second : b.value.isAggregate with
            | true => exact follows_second nullish different (asPrimitive_converts second)
            | false =>
                refine .answer ?_
                rw [looseEquals_of_unconverted nullish different firstNotBool secondNotBool first
                  second]
                exact Value.meet_of_different different notNumberText notTextNumber

/-- The rounds end with what the comparison comes to.  By induction on what is left to convert. -/
theorem settles (a b : Held) :
    ∃ count, count ≤ weight a b + 1 ∧ Settles count a b (looseEquals a b) := by
  generalize isRound : round a b = result
  have follows := round_follows a b
  rw [isRound] at follows
  cases follows with
  | answer isOutcome =>
      rw [isOutcome]
      exact ⟨1, Nat.le_add_left 1 _, .answer isRound⟩
  | fault isOutcome =>
      rw [isOutcome]
      exact ⟨1, Nat.le_add_left 1 _, .fault isRound⟩
  | @again c d same lighter =>
      obtain ⟨count, few, later⟩ := settles c d
      rw [same]
      exact ⟨count + 1, by omega, .again isRound later⟩
termination_by weight a b

theorem weight_le_two (a b : Held) : weight a b ≤ 2 :=
  Nat.add_le_add (Value.weight_le_one _) (Value.weight_le_one _)

theorem comparisonFrames_comm (a b : Held) : comparisonFrames a b = comparisonFrames b a := by
  simp only [comparisonFrames, Value.comparisonFrames, Bool.or_comm b.value.isNullish,
    eq_comm (a := b.value.typeOf), Nat.max_comm b.value.textFrames]

/-- Values of one type are compared without their texts. -/
theorem comparisonFrames_of_alike {a b : Held} (alike : a.value.typeOf = b.value.typeOf) :
    comparisonFrames a b = 0 := by
  rw [comparisonFrames, Value.comparisonFrames, decide_eq_true alike, Bool.or_true, if_pos rfl]

theorem typeOf_of_strictEquals {a b : Held} (equal : strictEquals a b = true) :
    a.value.typeOf = b.value.typeOf := by
  rw [strictEquals, Bool.or_eq_true] at equal
  rcases equal with same | equal
  · by_contra different
    rw [not_isSame_of_different different] at same
    cases same
  · exact Value.typeOf_of_strictEquals equal

/-- The comparison has an answer if its operands can be read as numbers. -/
theorem looseEquals_answers {a b : Held} (first : a.value.IsReadable)
    (second : b.value.IsReadable) : ∃ equal, looseEquals a b = .ok equal := by
  rw [looseEquals]
  split
  · exact ⟨true, rfl⟩
  · exact Value.looseEquals_answers first second

private theorem fault_of_looseEquals {a b : Held} {fault : Fault}
    (failed : looseEquals a b = .error fault) : fault = .tooLarge := by
  rw [looseEquals] at failed
  split at failed
  · cases failed
  · exact Value.limited_looseEquals a.value b.value fault failed

private theorem fault_of_looseEqualsWithin {a b : Held} {frames : Nat} {fault : Fault}
    (failed : looseEqualsWithin frames a b = .error fault) :
    fault = .tooLarge ∨ fault = .stackExhausted ∧ frames < comparisonFrames a b := by
  rw [looseEqualsWithin] at failed
  by_cases fits : comparisonFrames a b ≤ frames
  · rw [Stack.within_of_le fits] at failed
    exact .inl (fault_of_looseEquals failed)
  · rw [Stack.within_of_lt (Nat.not_le.mp fits)] at failed
    cases failed
    exact .inr ⟨rfl, Nat.not_le.mp fits⟩

/-- On a stack that has the frames for it, equality with coercion ends after at most three rounds,
and it has an answer if the operands can be read as numbers.  It has no answer only for an integer
that lies beyond the doubles or for want of frames.  It does not depend on the order of the
operands, and values that are equal without coercion are equal with it. -/
theorem looseEquals_wellBehaved (a b : Held) (frames : Nat) :
    (comparisonFrames a b ≤ frames →
      (∃ count ≤ 3, Settles count a b (looseEqualsWithin frames a b)) ∧
      (a.value.IsReadable → b.value.IsReadable →
        ∃ equal, looseEqualsWithin frames a b = .ok equal)) ∧
    (∀ fault, looseEqualsWithin frames a b = .error fault →
      fault = .tooLarge ∨ fault = .stackExhausted ∧ frames < comparisonFrames a b) ∧
    looseEqualsWithin frames a b = looseEqualsWithin frames b a ∧
    (strictEquals a b = true → looseEqualsWithin frames a b = .ok true) := by
  refine ⟨?fits, fun fault => fault_of_looseEqualsWithin, ?exchanged, ?strictly⟩
  case fits =>
    intro fits
    rw [looseEqualsWithin, Stack.within_of_le fits]
    obtain ⟨count, few, settles⟩ := settles a b
    exact ⟨⟨count, Nat.le_trans few (Nat.succ_le_succ (weight_le_two a b)), settles⟩,
      looseEquals_answers⟩
  case exchanged =>
    rw [looseEqualsWithin, looseEqualsWithin, comparisonFrames_comm, looseEquals_comm]
  case strictly =>
    intro equal
    have none := comparisonFrames_of_alike (typeOf_of_strictEquals equal)
    rw [looseEqualsWithin, Stack.within_of_le (none ▸ Nat.zero_le frames)]
    exact looseEquals_of_strictEquals equal

/-- A list equals itself, but not another list with the same item; and `true` equals a list of the
text `1`, for which both operands are converted. -/
theorem oneList_wellBehaved :
    let one : Held := ⟨.list [.string "1"], 0⟩
    let other : Held := ⟨.list [.string "1"], 1⟩
    let truth : Held := ⟨.bool true, 2⟩
    (strictEquals one one = true ∧ looseEqualsWithin 3 one one = .ok true) ∧
      looseEqualsWithin 3 one other = .ok false ∧
      (∃ equal, looseEqualsWithin 3 truth one = .ok equal) ∧
      (∃ count ≤ 3, Settles count truth one (.ok true)) ∧
      looseEqualsWithin 3 one truth = .ok true := by
  intro one other truth
  have strict : strictEquals one one = true := by decide
  have isTrue : looseEqualsWithin 3 truth one = .ok true := by decide +kernel
  have truthReads : truth.value.IsReadable := ⟨"true", .nan, rfl, by decide +kernel⟩
  have oneReads : one.value.IsReadable := ⟨"1", .int 1, rfl, by decide +kernel⟩
  obtain ⟨fits, _, comm, _⟩ := looseEquals_wellBehaved truth one 3
  obtain ⟨settles, answers⟩ := fits (by decide)
  obtain ⟨_, _, _, strictly⟩ := looseEquals_wellBehaved one one 3
  exact ⟨⟨strict, strictly strict⟩, rfl, answers truthReads oneReads, isTrue ▸ settles,
    comm ▸ isTrue⟩

/-- A numeral of a one and four hundred zeros. -/
def longNumeral : Text :=
  .char '1' :: List.replicate 400 (.char '0')

/-- A numeral beyond the doubles meets a number without an answer. -/
theorem longNumeral_unanswered :
    looseEqualsWithin Stack.limit ⟨.str longNumeral, 0⟩ ⟨.int 5, 1⟩ = .error .tooLarge := by
  decide +kernel

end Held

end ScriptFold
