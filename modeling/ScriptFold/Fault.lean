/-!
# Faults

A fault is a value or a text for which a calculation has no answer.  Faults carry
no position: they come from numbers, texts and tables, not from trees.

A calculation that goes down into what it is given takes frames of a stack, and has no
answer if it goes down further than the stack reaches.
-/

namespace ScriptFold

/-- Why a calculation has no answer. -/
inductive Fault where
  /-- An integer lies beyond the doubles, or a limit beyond what can be counted to. -/
  | tooLarge
  /-- A numeral or an escape does not follow its rules. -/
  | malformed
  /-- A text with a lone surrogate half has no 16-bit units. -/
  | loneHalf
  /-- A character is not a digit of the encoding. -/
  | unknownDigit
  /-- A text would be longer than memory holds. -/
  | tooLong
  /-- A list lacks an item that it must have. -/
  | missingItem
  /-- A node has a child of the wrong sort. -/
  | wrongChild
  /-- A node that must have a place in a text has none. -/
  | missingPlace
  /-- A value that cannot be a key is used as one. -/
  | badKey
  /-- Something else stands in the place of a whole script. -/
  | rootReplaced
  /-- An integer has more digits than are written. -/
  | tooManyDigits
  /-- A calculation goes down further than the stack reaches. -/
  | stackExhausted
  deriving DecidableEq, Repr

/-! ### The stack -/

namespace Stack

/-- The frames that a stack has. -/
def limit : Nat := 1000

/-- A calculation on a stack of some frames, of which it needs a number. -/
def within {ε α : Type} (exhausted : ε) (frames needed : Nat) (calculation : Except ε α) :
    Except ε α :=
  if needed ≤ frames then calculation else .error exhausted

variable {ε α : Type} {exhausted : ε} {frames needed : Nat} {calculation : Except ε α}

theorem within_of_le (fits : needed ≤ frames) :
    within exhausted frames needed calculation = calculation :=
  if_pos fits

theorem within_of_lt (exceeds : frames < needed) :
    within exhausted frames needed calculation = .error exhausted :=
  if_neg (Nat.not_le.mpr exceeds)

/-- A calculation with an answer had frames enough. -/
theorem of_within_eq_ok {answer : α}
    (done : within exhausted frames needed calculation = .ok answer) :
    needed ≤ frames ∧ calculation = .ok answer := by
  by_cases fits : needed ≤ frames
  · exact ⟨fits, (within_of_le fits).symm.trans done⟩
  · rw [within_of_lt (Nat.not_le.mp fits)] at done
    cases done

end Stack

/-! ### Calculations that may have a fault -/

namespace Calculation

variable {ε α β : Type}

@[simp] theorem ok_bind (value : α) (next : α → Except ε β) :
    (Except.ok value >>= next) = next value := rfl

theorem of_bind_eq_ok {first : Except ε α} {next : α → Except ε β} {result : β}
    (equality : (first >>= next) = .ok result) :
    ∃ value, first = .ok value ∧ next value = .ok result := by
  cases first with
  | error fault => cases equality
  | ok value => exact ⟨value, rfl, equality⟩

theorem eq_ok_of_toOption {calculated : Except ε α} {value : α}
    (found : calculated.toOption = some value) : calculated = .ok value := by
  cases calculated with
  | error fault => cases found
  | ok other =>
      cases found
      rfl

/-- A calculation that has no answer. -/
def Fails (calculated : Except ε α) : Prop :=
  ∃ fault, calculated = .error fault

theorem not_fails_ok {answer : α} : ¬ Fails (Except.ok answer : Except ε α) :=
  fun ⟨_, isError⟩ => nomatch isError

theorem fails_bind_iff {first : Except ε α} {next : α → Except ε β} :
    Fails (first >>= next) ↔ Fails first ∨ ∃ answer, first = .ok answer ∧ Fails (next answer) := by
  cases first with
  | error fault => exact ⟨fun _ => .inl ⟨fault, rfl⟩, fun _ => ⟨fault, rfl⟩⟩
  | ok answer =>
      constructor
      · exact fun fails => .inr ⟨answer, rfl, fails⟩
      · rintro (fails | ⟨_, same, fails⟩)
        · exact absurd fails not_fails_ok
        · cases same
          exact fails

theorem fails_map_iff {first : Except ε α} {next : α → β} :
    Fails (next <$> first) ↔ Fails first := by
  cases first with
  | error fault => exact ⟨fun _ => ⟨fault, rfl⟩, fun _ => ⟨fault, rfl⟩⟩
  | ok answer => exact iff_of_false not_fails_ok not_fails_ok

end Calculation

end ScriptFold
