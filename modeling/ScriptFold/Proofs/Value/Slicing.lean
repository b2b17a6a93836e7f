import ScriptFold.Fault
import ScriptFold.Proofs.Value.Search

/-!
# Parts and elements by index

`slice`, `substring` and `at` take indices of any size and sign, which may also be left out.
What they give is said by the indices alone: the elements between two bounds, in order, or the
element at a place.  The bounds are integers here, so that an index that is not brought into
range cannot wrap around.
-/

namespace ScriptFold

namespace Method

/-- What an argument asks for: an integer, or none if it is left out or undefined. -/
inductive Asks (args : List Value) (index : Nat) : Option Int → Prop
  | leftOut (absent : args[index]? = none) : Asks args index none
  | undefined (isUndefined : args[index]? = some .undefined) : Asks args index none
  | integer {n : Int} (given : args[index]? = some (.int n)) : Asks args index (some n)

theorem Asks.intArgument {args : List Value} {index : Nat} {asked : Option Int}
    (asks : Asks args index asked) (default : Int) :
    intArgument args index default = .ok (asked.getD default) := by
  unfold Method.intArgument
  cases asks with
  | leftOut isArgument | undefined isArgument | integer isArgument =>
      rw [isArgument]
      rfl

section Rules

variable {α : Type}

/-- The bound that an index stands for: a negative one counts from the end, and none lies
outside. -/
def bound (length : Nat) (index : Int) : Int :=
  if 0 ≤ index then min index length else max (length + index) 0

/-- An index moved to the nearer end if it lies outside. -/
def clamped (length : Nat) (index : Int) : Int :=
  max 0 (min index length)

/-- The place that an index stands for: a negative one counts from the end. -/
def place (length : Nat) (index : Int) : Int :=
  if index < 0 then length + index else index

/-- The elements at the indices from `start` up to, and not including, `stop`, in order. -/
def between (items : List α) (start stop : Int) : List α :=
  (items.zipIdx.filter fun entry => start ≤ entry.2 ∧ entry.2 < stop).map Prod.fst

/-- The elements between two bounds: the beginning and the end where none is asked for. -/
def sliced (items : List α) (first last : Option Int) : List α :=
  between items ((first.map (bound items.length)).getD 0)
    ((last.map (bound items.length)).getD items.length)

/-- The element at the place of an index, or undefined if there is no such place. -/
inductive TakenAt (items : List α) (single : α → Value) (index : Int) : Value → Prop
  | element {offset : Nat} (inRange : offset < items.length)
      (isPlace : place items.length index = offset) :
      TakenAt items single index (single items[offset])
  | nowhere (outside : place items.length index < 0 ∨ items.length ≤ place items.length index) :
      TakenAt items single index .undefined

/-- A method gives the elements between two bounds.  Any index divides the elements into those
before it and those from it on. -/
structure Slices (method : List Value → Result Value) (items : List α)
    (whole : List α → Value) : Prop where
  part {args : List Value} {first last : Option Int} (asksFirst : Asks args 0 first)
    (asksLast : Asks args 1 last) : method args = .ok (whole (sliced items first last))
  divided (index : Int) : ∃ front back,
    method [.int 0, .int index] = .ok (whole front) ∧
      method [.int index] = .ok (whole back) ∧ front ++ back = items

/-- A method gives the elements between two clamped indices, whichever comes first. -/
structure SlicesEitherWay (method : List Value → Result Value) (items : List α)
    (whole : List α → Value) : Prop where
  part {args : List Value} {first last : Option Int} (asksFirst : Asks args 0 first)
    (asksLast : Asks args 1 last) :
    let one := clamped items.length (first.getD 0)
    let other := clamped items.length (last.getD items.length)
    method args = .ok (whole (between items (min one other) (max one other)))
  swapped {args : List Value} {first last : Option Int} (asksFirst : Asks args 0 first)
    (asksLast : Asks args 1 last) :
    method [.int (last.getD items.length), .int (first.getD 0)] = method args

/-- A method gives the element at the place of an index. -/
def Takes (method : List Value → Result Value) (items : List α) (single : α → Value) : Prop :=
  ∀ {args : List Value} {index : Int}, Asks args 0 (some index) →
    ∃ value, method args = .ok value ∧ TakenAt items single index value

end Rules

section Bounds

variable (length : Nat) (index : Int)

theorem relative_eq_bound : (relative index length : Int) = bound length index := by
  unfold relative bound
  split
  · omega
  · omega

theorem clamp_eq_clamped : (clamp index length : Int) = clamped length index := by
  unfold clamp clamped
  omega

theorem relative_getD_zero (asked : Option Int) :
    (relative (asked.getD 0) length : Int) = (asked.map (bound length)).getD 0 := by
  cases asked with
  | none => exact congrArg Int.ofNat (Nat.zero_min length)
  | some n => exact relative_eq_bound length n

theorem relative_getD_length (asked : Option Int) :
    (relative (asked.getD length) length : Int) = (asked.map (bound length)).getD length := by
  cases asked with
  | none => exact congrArg Int.ofNat (Nat.min_self length)
  | some n => exact relative_eq_bound length n

end Bounds

section Parts

variable {α : Type}

/-- Dropping and taking gives the elements between two indices.  By induction on the elements,
with the index of the first one kept in the statement. -/
theorem zipIdx_filter_between (items : List α) (offset start stop : Nat) :
    ((items.zipIdx offset).filter fun entry =>
      (start : Int) ≤ entry.2 ∧ (entry.2 : Int) < stop).map Prod.fst =
      (items.drop (start - offset)).take (stop - max start offset) := by
  induction items generalizing offset with
  | nil => simp
  | cons first rest induction =>
      rw [List.zipIdx_cons, List.filter_cons]
      by_cases before : offset < start
      · have notYet : ¬ ((start : Int) ≤ offset ∧ (offset : Int) < stop) := by omega
        rw [if_neg (by simpa using notYet), induction (offset + 1),
          show start - offset = start - (offset + 1) + 1 by omega, List.drop_succ_cons,
          Nat.max_eq_left (by omega), Nat.max_eq_left (by omega)]
      · have noneDropped : start - offset = 0 := by omega
        rw [Nat.max_eq_right (by omega), noneDropped, List.drop_zero]
        by_cases within : offset < stop
        · have inside : (start : Int) ≤ offset ∧ (offset : Int) < stop := by omega
          rw [if_pos (by simpa using inside), List.map_cons, induction (offset + 1),
            Nat.max_eq_right (by omega), show start - (offset + 1) = 0 by omega, List.drop_zero,
            show stop - offset = stop - (offset + 1) + 1 by omega, List.take_succ_cons]
        · have beyond : ¬ ((start : Int) ≤ offset ∧ (offset : Int) < stop) := by omega
          rw [if_neg (by simpa using beyond), induction (offset + 1),
            Nat.max_eq_right (by omega), Nat.sub_eq_zero_of_le (by omega : stop ≤ offset + 1),
            Nat.sub_eq_zero_of_le (by omega : stop ≤ offset), List.take_zero, List.take_zero]

theorem between_eq_take_drop (items : List α) (start stop : Nat) :
    between items start stop = (items.drop start).take (stop - start) := by
  rw [between, zipIdx_filter_between items 0 start stop, Nat.sub_zero, Nat.max_eq_left
    (Nat.zero_le start)]

theorem sliced_eq (items : List α) (first last : Option Int) :
    sliced items first last =
      (items.drop (relative (first.getD 0) items.length)).take
        (relative (last.getD items.length) items.length -
          relative (first.getD 0) items.length) := by
  rw [sliced, ← relative_getD_zero, ← relative_getD_length, between_eq_take_drop]

/-- The parts before and after a bound make up the whole. -/
theorem sliced_append (items : List α) (index : Int) :
    sliced items (some 0) (some index) ++ sliced items (some index) none = items := by
  have start : relative 0 items.length = 0 := Nat.zero_min items.length
  have stop : relative items.length items.length = items.length := Nat.min_self _
  have inside : (items.drop (relative index items.length)).length ≤
      items.length - relative index items.length := Nat.le_of_eq List.length_drop
  rw [sliced_eq, sliced_eq, Option.getD_some, Option.getD_some, Option.getD_some,
    Option.getD_none, start, stop, List.drop_zero, Nat.sub_zero, List.take_of_length_le inside,
    List.take_append_drop]

/-- A method that gives the elements between two bounds divides them at any index. -/
theorem Slices.of_part {method : List Value → Result Value} {items : List α}
    {whole : List α → Value}
    (part : ∀ {args : List Value} {first last : Option Int}, Asks args 0 first →
      Asks args 1 last → method args = .ok (whole (sliced items first last))) :
    Slices method items whole where
  part := part
  divided index :=
    ⟨_, _, part (.integer rfl) (.integer rfl), part (.integer rfl) (.leftOut rfl),
      sliced_append items index⟩

theorem itemFrom?_taken (items : List α) (single : α → Value) (index : Int) :
    TakenAt items single index (((itemFrom? items index).map single).getD .undefined) := by
  have isFrom : itemFrom? items index = itemAt? items (place items.length index) := by
    rw [itemFrom?, place, Int.add_comm]
  rw [isFrom, itemAt?]
  split
  case isTrue negative => exact .nowhere (.inl negative)
  case isFalse notNegative =>
    by_cases inRange : (place items.length index).toNat < items.length
    · rw [List.getElem?_eq_getElem inRange]
      exact .element inRange (by omega)
    · rw [List.getElem?_eq_none (Nat.le_of_not_lt inRange)]
      exact .nowhere (.inr (by omega))

end Parts

section Methods

variable (text : Text) (items : List Value)

theorem stringSlice_slices : Slices (stringSlice text) text .str := by
  refine .of_part fun asksFirst asksLast => ?_
  rw [sliced_eq]
  simp only [stringSlice, asksFirst.intArgument, asksLast.intArgument, Calculation.ok_bind]
  rfl

theorem arraySlice_slices : Slices (arraySlice items) items .list := by
  refine .of_part fun asksFirst asksLast => ?_
  rw [sliced_eq, ← List.drop_take]
  simp only [arraySlice, asksFirst.intArgument, asksLast.intArgument, Calculation.ok_bind]
  rfl

theorem stringSubstring_eq {args : List Value} {first last : Option Int}
    (asksFirst : Asks args 0 first) (asksLast : Asks args 1 last) :
    stringSubstring text args =
      .ok (.str (text.slice
        (min (clamp (first.getD 0) text.length) (clamp (last.getD text.length) text.length))
        (max (clamp (first.getD 0) text.length) (clamp (last.getD text.length) text.length)))) := by
  simp only [stringSubstring, asksFirst.intArgument, asksLast.intArgument, Calculation.ok_bind]
  rfl

private theorem stringSubstring_slices : SlicesEitherWay (stringSubstring text) text .str where
  part {args first last} asksFirst asksLast := by
    intro one other
    have isOne : (clamp (first.getD 0) text.length : Int) = one := clamp_eq_clamped _ _
    have isOther : (clamp (last.getD text.length) text.length : Int) = other :=
      clamp_eq_clamped _ _
    rw [← isOne, ← isOther, stringSubstring_eq text asksFirst asksLast, Text.slice,
      ← between_eq_take_drop]
    congr 3 <;> omega
  swapped {args first last} asksFirst asksLast := by
    have asksSwapped : Asks [.int (last.getD text.length), .int (first.getD 0)] 0
      (some (last.getD text.length)) := .integer rfl
    rw [stringSubstring_eq text asksSwapped (.integer rfl),
      stringSubstring_eq text asksFirst asksLast, Option.getD_some, Option.getD_some, Nat.min_comm,
      Nat.max_comm]

private theorem stringAt_takes : Takes (stringAt text) text fun point => .str [point] := by
  intro args index asks
  refine ⟨_, ?_, itemFrom?_taken text _ index⟩
  simp only [stringAt, asks.intArgument, Option.getD_some, Calculation.ok_bind]
  cases itemFrom? text index with
  | none | some point => rfl

private theorem arrayAt_takes : Takes (arrayAt items) items id := by
  intro args index asks
  refine ⟨_, ?_, itemFrom?_taken items id index⟩
  simp only [arrayAt, asks.intArgument, Option.getD_some, Calculation.ok_bind, Option.map_id_fun,
    id_eq]
  rfl

/-- Parts and elements follow the indices, for texts and for arrays. -/
theorem slicing_follows_indices :
    Slices (stringSlice text) text .str ∧
    Slices (arraySlice items) items .list ∧
    SlicesEitherWay (stringSubstring text) text .str ∧
    (Takes (stringAt text) text fun point => .str [point]) ∧
    Takes (arrayAt items) items id :=
  ⟨stringSlice_slices text, arraySlice_slices items, stringSubstring_slices text,
    stringAt_takes text, arrayAt_takes items⟩

example : stringSlice "abcdef" [.int (-4), .int 9] = .ok (.string "cdef") := rfl

end Methods

end Method

end ScriptFold
