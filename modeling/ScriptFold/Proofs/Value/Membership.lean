import ScriptFold.Fault
import ScriptFold.Value.Property

/-!
# Membership and reading

Whether a container has a property is decided apart from what reading the property gives.
`Overlooked` lists the names on which the two disagree, and `agree_iff` says that the list is
complete: dictionaries and arrays leave out what they inherit, and an array takes an index
for its own however the digits are written.
-/

namespace ScriptFold

namespace Property

/-- Whether reading leaves open that there is such a property. -/
def Reading.isPresent : Reading → Bool
  | .missing => false
  | .found _ | .unknownValue => true

/-- Membership of a key and reading of its name are both settled, and they agree. -/
def Agree (key container : Value) (name : Text) : Prop :=
  ∃ reading, read container name = .ok reading ∧
    contains? key container = .ok (some reading.isPresent)

/-- The names on which membership in a container and reading do not agree. -/
inductive Overlooked : Value → Text → Prop
  /-- A name that a dictionary only inherits is no member. -/
  | ofRecord {entries : List (Value × Value)} {name : Text}
      (absent : Value.lookup name entries = none) (inherits : name.isOneOf ofObjects = true) :
      Overlooked (.record entries) name
  /-- A name that an array inherits is no member. -/
  | ofArray {container : Value} {items : List Value} {name : Text}
      (isArray : container.items? = some items) (inherits : name.isOneOf ofArrays = true) :
      Overlooked container name
  /-- A number in range is a member however its digits are written. -/
  | rewritten {container : Value} {items : List Value} {name : Text} {n : Nat}
      (isArray : container.items? = some items) (digits : Numeral.isDigits name = true)
      (value : digitsValue name = .ok n) (inRange : n < items.length)
      (otherwise : name.isString (digitsOf n) = false) : Overlooked container name
  /-- Of digits that write no number neither is settled. -/
  | unsettled {container : Value} {items : List Value} {name : Text} {fault : Fault}
      (isArray : container.items? = some items) (digits : Numeral.isDigits name = true)
      (noValue : digitsValue name = .error fault) : Overlooked container name

theorem overlooked_record_iff {entries : List (Value × Value)} {name : Text} :
    Overlooked (.record entries) name ↔
      Value.lookup name entries = none ∧ name.isOneOf ofObjects = true := by
  constructor
  · intro overlooked
    cases overlooked with
    | ofRecord absent inherits => exact ⟨absent, inherits⟩
    | ofArray isArray => cases isArray
    | rewritten isArray => cases isArray
    | unsettled isArray => cases isArray
  · intro ⟨absent, inherits⟩
    exact .ofRecord absent inherits

theorem overlooked_array_iff {container : Value} {items : List Value} {name : Text}
    (isArray : container.items? = some items) :
    Overlooked container name ↔ name.isOneOf ofArrays = true ∨
      (∃ n, Numeral.isDigits name = true ∧ digitsValue name = .ok n ∧ n < items.length ∧
        name.isString (digitsOf n) = false) ∨
      ∃ fault, Numeral.isDigits name = true ∧ digitsValue name = .error fault := by
  constructor
  · intro overlooked
    cases overlooked with
    | ofRecord => cases isArray
    | ofArray _ inherits => exact .inl inherits
    | rewritten sameArray digits value inRange otherwise =>
        rw [isArray] at sameArray
        cases sameArray
        exact .inr (.inl ⟨_, digits, value, inRange, otherwise⟩)
    | unsettled _ digits noValue => exact .inr (.inr ⟨_, digits, noValue⟩)
  · intro reasons
    rcases reasons with inherits | ⟨n, digits, value, inRange, otherwise⟩ | ⟨fault, digits, noValue⟩
    · exact .ofArray isArray inherits
    · exact .rewritten isArray digits value inRange otherwise
    · exact .unsettled isArray digits noValue

/-- Inherited names of arrays are not written with digits. -/
theorem not_isDigits_of_inherited {name : Text} (inherits : name.isOneOf ofArrays = true) :
    Numeral.isDigits name = false := by
  have noDigits : ∀ word ∈ ofArrays, Numeral.isDigits (Text.ofString word) = false := by decide
  obtain ⟨word, there, isWord⟩ := List.any_eq_true.mp inherits
  rw [eq_of_beq isWord]
  exact noDigits word there

theorem inherited_isPresent (names : List String) (name : Text) :
    (inherited names name).isPresent = name.isOneOf names := by
  cases isName : name.isOneOf names with
  | true => simp [inherited, isName, Reading.isPresent]
  | false => simp [inherited, isName, Reading.isPresent]

section Settled

variable {key container : Value} {name : Text}

theorem agree_iff_of_settled {reading : Reading} {isMember : Bool}
    (reads : read container name = .ok reading)
    (member : contains? key container = .ok (some isMember)) :
    Agree key container name ↔ isMember = reading.isPresent := by
  constructor
  · rintro ⟨other, readsOther, agrees⟩
    rw [reads] at readsOther
    cases readsOther
    rw [member] at agrees
    simpa using agrees
  · intro same
    exact ⟨reading, reads, by rw [member, same]⟩

theorem index?_number {n : Nat} (digits : Numeral.isDigits name = true)
    (value : digitsValue name = .ok n) :
    index? name = .ok (if name.isString (digitsOf n) then some n else none) := by
  simp only [index?, digits, value, Calculation.ok_bind]
  rfl

theorem read_array {items : List Value} (isArray : container.items? = some items) :
    read container name = ofItems ofArrays items name := by
  cases container with
  | list others =>
      cases isArray
      rfl
  | tuple others =>
      cases isArray
      rfl
  | undefined | null | bool | num | str | record | function | sealed => cases isArray

variable (named : key.propertyKey = .ok (some name))
include named

private theorem contains?_record (entries : List (Value × Value)) :
    contains? key (.record entries) = .ok (some (Value.lookup name entries).isSome) := by
  simp only [contains?, named, Calculation.ok_bind]
  rfl

/-- Dictionaries leave out the names that they inherit, and no others. -/
theorem agree_record_iff (entries : List (Value × Value)) :
    Agree key (.record entries) name ↔ ¬ Overlooked (.record entries) name := by
  have member := contains?_record named entries
  rw [overlooked_record_iff]
  cases found : Value.lookup name entries with
  | some value =>
      have reads : read (.record entries) name = .ok (.found value) := by
        simp [read, found]
      rw [agree_iff_of_settled reads member]
      simp [found, Reading.isPresent]
  | none =>
      have reads : read (.record entries) name = .ok (inherited ofObjects name) := by
        simp [read, found]
      rw [agree_iff_of_settled reads member]
      simp [found, inherited_isPresent]

section Array

variable {items : List Value} (isArray : container.items? = some items)
include isArray

theorem contains?_array : contains? key container =
    if name.isString "length" then .ok (some true)
    else if Numeral.isDigits name then
      (digitsValue name).map fun n => some (decide (n < items.length))
    else .ok (some false) := by
  have member : contains? key container = (do
      if name.isString "length" then return some true
      if !Numeral.isDigits name then return some false
      return some ((← digitsValue name) < items.length)) := by
    cases container with
    | list others | tuple others =>
        cases isArray
        simp only [contains?, named, Calculation.ok_bind]
    | undefined | null | bool | num | str | record | function | sealed => cases isArray
  rw [member]
  cases isLength : name.isString "length" with
  | true => rfl
  | false =>
      cases digits : Numeral.isDigits name with
      | true => rfl
      | false => rfl

/-- A name that is not written with digits: only an inherited one is overlooked. -/
theorem agree_array_word (notLength : name.isString "length" = false)
    (noDigits : Numeral.isDigits name = false) :
    Agree key container name ↔ ¬ Overlooked container name := by
  have member : contains? key container = .ok (some false) := by
    rw [contains?_array named isArray, notLength, noDigits]
    rfl
  have reads : read container name = .ok (inherited ofArrays name) := by
    simp only [read_array isArray, ofItems, notLength, index?, noDigits]
    rfl
  rw [agree_iff_of_settled reads member, overlooked_array_iff isArray, inherited_isPresent]
  simp [noDigits]

/-- A number: another spelling of an index in range is overlooked. -/
theorem agree_array_number (notLength : name.isString "length" = false)
    (digits : Numeral.isDigits name = true) {n : Nat} (value : digitsValue name = .ok n) :
    Agree key container name ↔ ¬ Overlooked container name := by
  have member : contains? key container = .ok (some (decide (n < items.length))) := by
    rw [contains?_array named isArray, notLength, digits, value]
    rfl
  have notInherited : name.isOneOf ofArrays = false := by
    cases inherits : name.isOneOf ofArrays with
    | false => rfl
    | true => simp [not_isDigits_of_inherited inherits] at digits
  rw [overlooked_array_iff isArray]
  cases asIndex : name.isString (digitsOf n) with
  | true =>
      have isIndex : index? name = .ok (some n) := by
        rw [index?_number digits value, if_pos asIndex]
      by_cases inRange : n < items.length
      · have there : items[n]? = some items[n] := List.getElem?_eq_getElem inRange
        have reads : read container name = .ok (.found items[n]) := by
          simp only [read_array isArray, ofItems, notLength, isIndex, Calculation.ok_bind, there]
          rfl
        rw [agree_iff_of_settled reads member]
        simp [inRange, notInherited, value, asIndex, Reading.isPresent]
      · have absent : items[n]? = none := List.getElem?_eq_none (Nat.le_of_not_lt inRange)
        have reads : read container name = .ok .missing := by
          simp only [read_array isArray, ofItems, notLength, isIndex, Calculation.ok_bind, absent]
          rfl
        rw [agree_iff_of_settled reads member]
        simp [inRange, notInherited, value, Reading.isPresent]
  | false =>
      have noIndex : index? name = .ok none := by
        rw [index?_number digits value, if_neg (by simp [asIndex])]
      have reads : read container name = .ok (inherited ofArrays name) := by
        simp only [read_array isArray, ofItems, notLength, noIndex, Calculation.ok_bind]
        rfl
      rw [agree_iff_of_settled reads member, inherited_isPresent]
      simp [notInherited, value, digits, asIndex]

/-- Arrays leave out the names that they inherit, and take an index for their own however it
is written. -/
theorem agree_array_iff : Agree key container name ↔ ¬ Overlooked container name := by
  cases isLength : name.isString "length" with
  | true =>
      have isName : name = Text.ofString "length" := eq_of_beq isLength
      have member : contains? key container = .ok (some true) := by
        rw [contains?_array named isArray, isLength]
        rfl
      have reads : read container name = .ok (.found (.int items.length)) := by
        simp only [read_array isArray, ofItems, isLength]
        rfl
      have notInherited : Text.isOneOf (Text.ofString "length") ofArrays = false := by decide
      have noDigits : Numeral.isDigits (Text.ofString "length") = false := by decide
      rw [agree_iff_of_settled reads member, overlooked_array_iff isArray, isName]
      simp [notInherited, noDigits, Reading.isPresent]
  | false =>
      cases digits : Numeral.isDigits name with
      | false => exact agree_array_word named isArray isLength digits
      | true =>
          cases value : digitsValue name with
          | ok n => exact agree_array_number named isArray isLength digits value
          | error fault =>
              have overlooked : Overlooked container name := .unsettled isArray digits value
              have unsettled : contains? key container = .error fault := by
                rw [contains?_array named isArray, isLength, digits, value]
                rfl
              constructor
              · rintro ⟨reading, _, agrees⟩
                simp [unsettled] at agrees
              · intro noticed
                exact absurd overlooked noticed

end Array

/-- For a dictionary or an array and a key that names a property, membership and reading agree
if and only if the name is not overlooked: neither one that the container only inherits, nor
another spelling of an index in range, nor digits that write no number. -/
theorem agree_iff (isContainer : container.items?.isSome = true ∨
    ∃ entries, container = .record entries) :
    Agree key container name ↔ ¬ Overlooked container name := by
  rcases isContainer with isArray | ⟨entries, rfl⟩
  · obtain ⟨items, isArray⟩ := Option.isSome_iff_exists.mp isArray
    exact agree_array_iff named isArray
  · exact agree_record_iff named entries

end Settled

/-- The name `01` of an array of two items, which is taken for its index 1. -/
theorem agree_zeroOne : (Value.string "01").propertyKey = .ok (some (Text.ofString "01")) ∧
    ((Value.list [.null, .null]).items?.isSome = true ∨
      ∃ entries, Value.list [.null, .null] = .record entries) ∧
    ¬ Agree (.string "01") (.list [.null, .null]) "01" := by
  have named : (Value.string "01").propertyKey = .ok (some (Text.ofString "01")) := rfl
  have isContainer : (Value.list [.null, .null]).items?.isSome = true ∨
      ∃ entries, Value.list [.null, .null] = .record entries := .inl rfl
  have overlooked : Overlooked (.list [.null, .null]) "01" :=
    .rewritten rfl (by decide) (show digitsValue "01" = .ok 1 from rfl) (by decide) (by decide)
  refine ⟨named, isContainer, ?_⟩
  rw [agree_iff named isContainer]
  exact not_not_intro overlooked

/-- Inherited names are no members, though reading them finds that they may be there. -/
theorem inheritedName_overlooked : ¬ ∀ (key container : Value) (name : Text),
    key.propertyKey = .ok (some name) →
    (container.items?.isSome = true ∨ ∃ entries, container = .record entries) →
    (contains? key container = .ok (some true) ↔ read container name ≠ .ok .missing) := by
  intro agree
  have member := agree (.string "toString") (.record []) "toString" rfl (.inr ⟨[], rfl⟩)
  have notMember : contains? (.string "toString") (.record []) = .ok (some false) := rfl
  have reads : read (.record []) "toString" = .ok .unknownValue := rfl
  rw [notMember, reads] at member
  simp at member

end Property

end ScriptFold
