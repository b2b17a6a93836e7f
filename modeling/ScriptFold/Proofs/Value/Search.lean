import ScriptFold.Fault
import ScriptFold.Value.Method

/-!
# Searches from a position

A search method takes the position it starts from as an argument.  What it should do there is
said once, by where a part occurs in a text: the first occurrence from the position on, with a
position outside of the text moved to its nearer end.  The methods read the position in four
ways, so each of them is first shown to search from the position that it reads, and then
compared with the position that it was given.
-/

namespace ScriptFold

namespace Method

/-- A part occurs in a text at an offset. -/
def OccursAt (part text : Text) (offset : Nat) : Prop :=
  offset ≤ text.length ∧ part <+: text.drop offset

/-- What a search gives: the least offset from `start` on at which `holds`, or `-1`. -/
inductive Finds (holds : Nat → Prop) (start : Nat) : Value → Prop
  | first {offset : Nat} (later : start ≤ offset) (here : holds offset)
      (least : ∀ earlier, start ≤ earlier → earlier < offset → ¬ holds earlier) :
      Finds holds start (.int offset)
  | nowhere (absent : ∀ offset, start ≤ offset → ¬ holds offset) :
      Finds holds start (.int (-1))

/-- A method succeeds and gives the first offset from `start` on. -/
def Searches (result : Result Value) (holds : Nat → Prop) (start : Nat) : Prop :=
  ∃ value, result = .ok value ∧ Finds holds start value

/-- A method succeeds and tells whether a proposition holds. -/
def Decides (result : Result Value) (proposition : Prop) : Prop :=
  ∃ answer, result = .ok (.bool answer) ∧ (answer = true ↔ proposition)

/-- The position in an array that an argument asks for: a negative one counts from the end. -/
def arrayPosition (position : Int) (length : Nat) : Nat :=
  if position < 0 then ((length : Int) + position).toNat else position.toNat

section Finds

variable {holds : Nat → Prop} {start : Nat} {value : Value}

/-- A search may begin one offset earlier where nothing is found. -/
theorem Finds.of_next (notHere : ¬ holds start) (finds : Finds holds (start + 1) value) :
    Finds holds start value := by
  have notFrom : ∀ offset, start ≤ offset → ¬ start + 1 ≤ offset → ¬ holds offset := by
    intro offset later notLater
    rwa [show offset = start by omega]
  cases finds with
  | first later here least =>
      refine .first (by omega) here fun earlier notBefore before => ?_
      by_cases next : start + 1 ≤ earlier
      · exact least earlier next before
      · exact notFrom earlier notBefore next
  | nowhere absent =>
      refine .nowhere fun offset later => ?_
      by_cases next : start + 1 ≤ offset
      · exact absent offset next
      · exact notFrom offset later next

/-- A search from the beginning does for a later position unless it ends before. -/
theorem Finds.later_iff (finds : Finds holds 0 value) :
    Finds holds start value ↔ ∀ offset < start, ¬ holds offset := by
  cases finds with
  | @first offset _ here least =>
      constructor
      · intro finds earlier before
        cases finds with
        | first later _ _ => exact least earlier (Nat.zero_le earlier) (by omega)
      · intro absent
        have later : start ≤ offset := Nat.le_of_not_lt fun before => absent offset before here
        exact .first later here fun earlier _ => least earlier (Nat.zero_le earlier)
  | nowhere absent =>
      constructor
      · intro _ offset _
        exact absent offset (Nat.zero_le offset)
      · intro _
        exact .nowhere fun offset _ => absent offset (Nat.zero_le offset)

theorem Decides.iff_of {result : Result Value} {actual wanted : Prop}
    (decides : Decides result actual) : Decides result wanted ↔ (actual ↔ wanted) := by
  obtain ⟨answer, gives, tells⟩ := decides
  constructor
  · rintro ⟨other, givesOther, tellsOther⟩
    rw [gives] at givesOther
    cases givesOther
    exact tells.symm.trans tellsOther
  · intro same
    exact ⟨answer, gives, tells.trans same⟩

end Finds

section Occurrences

variable {part text : Text}

theorem occursAt_length_iff : OccursAt part text text.length ↔ part = [] := by
  simp [OccursAt]

/-- Occurrences in the rest of a text are the later occurrences in the text. -/
theorem occursAt_drop_iff {start offset : Nat} (inside : start ≤ text.length) :
    OccursAt part (text.drop start) offset ↔ OccursAt part text (start + offset) := by
  simp only [OccursAt, List.length_drop, List.drop_drop]
  have same : offset ≤ text.length - start ↔ start + offset ≤ text.length := by omega
  rw [same]

theorem exists_occursAt_drop_iff {start : Nat} (inside : start ≤ text.length) :
    (∃ offset, OccursAt part (text.drop start) offset) ↔
      ∃ offset, start ≤ offset ∧ OccursAt part text offset := by
  constructor
  · rintro ⟨offset, occurs⟩
    exact ⟨start + offset, by omega, (occursAt_drop_iff inside).mp occurs⟩
  · rintro ⟨offset, later, occurs⟩
    refine ⟨offset - start, (occursAt_drop_iff inside).mpr ?_⟩
    rwa [show start + (offset - start) = offset by omega]

/-- The search through the rest of a text finds the first occurrence in the text. -/
theorem indexOf?_finds {rest : Text} {offset : Nat} (inside : offset ≤ text.length)
    (isRest : text.drop offset = rest) :
    Finds (OccursAt part text) offset (indexValue (Text.indexOf? part rest offset)) := by
  induction rest generalizing offset with
  | nil =>
      have atEnd : offset = text.length := by
        have ends := List.drop_eq_nil_iff.mp isRest
        omega
      subst atEnd
      cases part with
      | nil =>
          exact .first (Nat.le_refl _) (occursAt_length_iff.mpr rfl) fun earlier notBefore before =>
            absurd notBefore (by omega)
      | cons point points =>
          refine .nowhere fun offset later occurs => ?_
          have inside := occurs.1
          have atEnd : offset = text.length := by omega
          rw [atEnd, occursAt_length_iff] at occurs
          cases occurs
  | cons point rest induction =>
      cases isHere : part.isPrefixOf (point :: rest) with
      | true =>
          have here : OccursAt part text offset :=
            ⟨inside, by rw [isRest]; exact List.isPrefixOf_iff_prefix.mp isHere⟩
          rw [Text.indexOf?, if_pos isHere]
          exact .first (Nat.le_refl _) here fun earlier notBefore before =>
            absurd notBefore (by omega)
      | false =>
          have notHere : ¬ OccursAt part text offset := by
            rintro ⟨_, occurs⟩
            rw [isRest, ← List.isPrefixOf_iff_prefix, isHere] at occurs
            cases occurs
          have within : offset + 1 ≤ text.length := by
            have length := congrArg List.length isRest
            simp only [List.length_drop, List.length_cons] at length
            omega
          have isNext : text.drop (offset + 1) = rest := by
            rw [← List.tail_drop, isRest, List.tail_cons]
          rw [Text.indexOf?, if_neg (by simp [isHere])]
          exact (induction within isNext).of_next notHere

theorem indexOf?_isSome_iff : (Text.indexOf? part text 0).isSome = true ↔
    ∃ offset, OccursAt part text offset := by
  have finds : Finds (OccursAt part text) 0 (indexValue (Text.indexOf? part text 0)) :=
    indexOf?_finds (Nat.zero_le _) rfl
  cases found : Text.indexOf? part text 0 with
  | some index =>
      rw [found] at finds
      cases finds with
      | first _ here _ => exact ⟨fun _ => ⟨_, here⟩, fun _ => rfl⟩
  | none =>
      rw [found] at finds
      cases finds with
      | nowhere absent =>
          constructor
          · intro isSome
            cases isSome
          · rintro ⟨offset, occurs⟩
            exact absurd occurs (absent offset (Nat.zero_le offset))

end Occurrences

section Positions

variable (position : Int) (length : Nat)

theorem relative_le : relative position length ≤ length := by
  unfold relative
  split
  · omega
  · omega

theorem relative_eq_clamp (notNegative : ¬ position < 0) :
    relative position length = clamp position length := by
  rw [relative, if_neg notNegative, clamp]

theorem clamp_of_negative (negative : position < 0) : clamp position length = 0 := by
  unfold clamp
  omega

end Positions

section Methods

variable (text part : Text) (position : Int)

theorem stringIncludes_decides : Decides (stringIncludes text [.str part, .int position])
    (∃ offset, relative position text.length ≤ offset ∧ OccursAt part text offset) := by
  have inside := relative_le position text.length
  exact ⟨_, rfl, indexOf?_isSome_iff.trans (exists_occursAt_drop_iff inside)⟩

theorem stringStartsWith_decides : Decides (stringStartsWith text [.str part, .int position])
    (OccursAt part text (relative position text.length)) := by
  have inside := relative_le position text.length
  exact ⟨_, rfl, List.isPrefixOf_iff_prefix.trans (and_iff_right inside).symm⟩

theorem stringEndsWith_decides : Decides (stringEndsWith text [.str part, .int position])
    (part <:+ text.take (relative position text.length)) :=
  ⟨_, rfl, List.isSuffixOf_iff_suffix⟩

/-- A position beyond the end is not moved to the end, where an empty part would be found. -/
theorem stringIndexOf_searches_iff :
    Searches (stringIndexOf text [.str part, .int position]) (OccursAt part text)
      (clamp position text.length) ↔ ¬ (part = [] ∧ (text.length : Int) < position) := by
  have gives : stringIndexOf text [.str part, .int position] =
      if text.length < position.toNat then .ok (.int (-1))
      else .ok (indexValue (Text.indexOf? part (text.drop position.toNat) position.toNat)) := rfl
  by_cases beyond : text.length < position.toNat
  · have atEnd : clamp position text.length = text.length := Nat.min_eq_right (by omega)
    rw [gives, if_pos beyond, atEnd]
    constructor
    · rintro ⟨value, isValue, finds⟩ ⟨rfl, _⟩
      cases isValue
      cases finds with
      | nowhere absent =>
          exact absent text.length (Nat.le_refl _) (occursAt_length_iff.mpr rfl)
    · intro notEmpty
      refine ⟨_, rfl, .nowhere fun offset later occurs => notEmpty ⟨?_, by omega⟩⟩
      have inside := occurs.1
      rw [show offset = text.length by omega] at occurs
      exact occursAt_length_iff.mp occurs
  · have inside : position.toNat ≤ text.length := Nat.le_of_not_lt beyond
    have same : clamp position text.length = position.toNat := Nat.min_eq_left inside
    rw [gives, if_neg beyond, same]
    constructor
    · rintro _ ⟨_, further⟩
      omega
    · intro _
      exact ⟨_, rfl, indexOf?_finds inside rfl⟩

theorem stringIncludes_decides_iff : Decides (stringIncludes text [.str part, .int position])
      (∃ offset, clamp position text.length ≤ offset ∧ OccursAt part text offset) ↔
    (position < 0 → ∀ offset, OccursAt part text offset →
      ∃ later, relative position text.length ≤ later ∧ OccursAt part text later) := by
  rw [(stringIncludes_decides text part position).iff_of]
  by_cases negative : position < 0
  · rw [clamp_of_negative position text.length negative]
    constructor
    · intro same _ offset occurs
      exact same.mpr ⟨offset, Nat.zero_le offset, occurs⟩
    · intro recurs
      constructor
      · rintro ⟨offset, _, occurs⟩
        exact ⟨offset, Nat.zero_le offset, occurs⟩
      · rintro ⟨offset, _, occurs⟩
        exact recurs negative offset occurs
  · simp [relative_eq_clamp position text.length negative, negative]

theorem stringStartsWith_decides_iff : Decides (stringStartsWith text [.str part, .int position])
      (OccursAt part text (clamp position text.length)) ↔
    (position < 0 →
      (OccursAt part text (relative position text.length) ↔ OccursAt part text 0)) := by
  rw [(stringStartsWith_decides text part position).iff_of]
  by_cases negative : position < 0
  · simp [clamp_of_negative position text.length negative, negative]
  · simp [relative_eq_clamp position text.length negative, negative]

theorem stringEndsWith_decides_iff : Decides (stringEndsWith text [.str part, .int position])
      (part <:+ text.take (clamp position text.length)) ↔
    (position < 0 → part <:+ text.take (relative position text.length) → part = []) := by
  rw [(stringEndsWith_decides text part position).iff_of]
  by_cases negative : position < 0
  · rw [clamp_of_negative position text.length negative, List.take_zero, List.suffix_nil]
    constructor
    · intro same _ ends
      exact same.mp ends
    · intro onlyEmpty
      refine ⟨onlyEmpty negative, ?_⟩
      rintro rfl
      exact List.nil_suffix
  · simp [relative_eq_clamp position text.length negative, negative]

variable (items : List Value) (value : Value)

/-- An item that is strictly equal to a value stands at an index. -/
def StandsAt (index : Nat) : Prop :=
  ∃ item, items[index]? = some item ∧ Value.strictEquals item value = true

private theorem arrayIndexOf_searches : Searches (arrayIndexOf items [value, .int position])
    (StandsAt items value) 0 := by
  have gives : arrayIndexOf items [value, .int position] =
      .ok (indexValue (items.findIdx? fun item => Value.strictEquals item value)) := rfl
  refine ⟨_, gives, ?_⟩
  cases found : items.findIdx? fun item => Value.strictEquals item value with
  | some index =>
      obtain ⟨inside, here, least⟩ := List.findIdx?_eq_some_iff_getElem.mp found
      refine .first (Nat.zero_le index) ⟨_, List.getElem?_eq_getElem inside, here⟩ ?_
      rintro earlier _ before ⟨item, isItem, isEqual⟩
      obtain ⟨within, rfl⟩ := List.getElem?_eq_some_iff.mp isItem
      exact least earlier before isEqual
  | none =>
      refine .nowhere ?_
      rintro index _ ⟨item, isItem, isEqual⟩
      have notEqual := List.findIdx?_eq_none_iff.mp found item (List.mem_of_getElem? isItem)
      rw [isEqual] at notEqual
      cases notEqual

/-- The items before the position are not left out. -/
theorem arrayIndexOf_searches_iff : Searches (arrayIndexOf items [value, .int position])
      (StandsAt items value) (arrayPosition position items.length) ↔
    ∀ index < arrayPosition position items.length, ¬ StandsAt items value index := by
  obtain ⟨result, gives, finds⟩ := arrayIndexOf_searches position items value
  rw [← finds.later_iff]
  constructor
  · rintro ⟨other, givesOther, findsOther⟩
    rw [gives] at givesOther
    cases givesOther
    exact findsOther
  · intro findsLater
    exact ⟨result, gives, findsLater⟩

/-- The searches honour the position they are given, up to these cases.  A negative position
counts from the end in `includes`, `startsWith` and `endsWith`; `indexOf` finds no empty part
beyond the end; and in an array `indexOf` begins with the first item in any case. -/
theorem searches_honour_iff :
    (Searches (stringIndexOf text [.str part, .int position]) (OccursAt part text)
        (clamp position text.length) ↔ ¬ (part = [] ∧ (text.length : Int) < position)) ∧
    (Decides (stringIncludes text [.str part, .int position])
        (∃ offset, clamp position text.length ≤ offset ∧ OccursAt part text offset) ↔
      (position < 0 → ∀ offset, OccursAt part text offset →
        ∃ later, relative position text.length ≤ later ∧ OccursAt part text later)) ∧
    (Decides (stringStartsWith text [.str part, .int position])
        (OccursAt part text (clamp position text.length)) ↔
      (position < 0 →
        (OccursAt part text (relative position text.length) ↔ OccursAt part text 0))) ∧
    (Decides (stringEndsWith text [.str part, .int position])
        (part <:+ text.take (clamp position text.length)) ↔
      (position < 0 → part <:+ text.take (relative position text.length) → part = [])) ∧
    (Searches (arrayIndexOf items [value, .int position]) (StandsAt items value)
        (arrayPosition position items.length) ↔
      ∀ index < arrayPosition position items.length, ¬ StandsAt items value index) :=
  ⟨stringIndexOf_searches_iff text part position, stringIncludes_decides_iff text part position,
    stringStartsWith_decides_iff text part position, stringEndsWith_decides_iff text part position,
    arrayIndexOf_searches_iff position items value⟩

end Methods

/-- The first letter of `abc` is not found from the position -1 on. -/
theorem negativePosition_not_honoured : ¬ ∀ (text part : Text) (position : Int),
    Decides (stringIncludes text [.str part, .int position])
      (∃ offset, clamp position text.length ≤ offset ∧ OccursAt part text offset) := by
  intro honours
  obtain ⟨answer, gives, tells⟩ := honours "abc" "a" (-1)
  have refuses : stringIncludes "abc" [.str "a", .int (-1)] = .ok (.bool false) := rfl
  have occurs : OccursAt "a" "abc" 0 := ⟨Nat.zero_le _, by decide⟩
  rw [refuses] at gives
  cases gives
  exact absurd (tells.mpr ⟨0, by decide, occurs⟩) (by decide)

end Method

end ScriptFold
