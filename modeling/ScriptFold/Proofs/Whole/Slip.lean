import ScriptFold.Fault
import ScriptFold.Text.StringLiteral
import ScriptFold.Value.Method
import ScriptFold.Value.Operator
import ScriptFold.Value.Property

/-!
# Slips

A calculation on values, or on the text of a token, may have no answer: a number is too large,
a numeral or an escape is malformed, a text has a lone surrogate half or would be too long.  No
calculation of this sort fails in another way.
-/

namespace ScriptFold

/-- A fault of a calculation on values or on the text of a token. -/
def Slip (fault : Fault) : Prop :=
  fault ∈ [.tooLarge, .malformed, .loneHalf, .tooLong]

instance : DecidablePred Slip :=
  fun fault => inferInstanceAs (Decidable (fault ∈ _))

namespace Calculation

variable {α β : Type}

/-- Every fault of a calculation is a slip. -/
def Slips (calculated : Except Fault α) : Prop :=
  ∀ fault, calculated = .error fault → Slip fault

theorem slips_ok (value : α) : Slips (Except.ok value : Except Fault α) :=
  nofun

theorem slips_pure (value : α) : Slips (pure value : Except Fault α) :=
  nofun

theorem slips_error {fault : Fault} (slip : Slip fault) :
    Slips (Except.error fault : Except Fault α) := by
  intro other fails
  cases fails
  exact slip

theorem Slips.bind {first : Except Fault β} {next : β → Except Fault α} (begins : Slips first)
    (goes : ∀ value, first = .ok value → Slips (next value)) : Slips (first >>= next) := by
  cases first with
  | error fault =>
      intro other fails
      cases fails
      exact begins fault rfl
  | ok value => exact goes value rfl

/-- A calculation, and another one from whatever the first one gives. -/
theorem Slips.andThen {first : Except Fault β} {next : β → Except Fault α} (begins : Slips first)
    (goes : ∀ value, Slips (next value)) : Slips (first >>= next) :=
  begins.bind fun value _ => goes value

theorem Slips.map {first : Except Fault β} {change : β → α} (begins : Slips first) :
    Slips (first.map change) := by
  cases first with
  | error fault =>
      intro other fails
      cases fails
      exact begins fault rfl
  | ok value => exact slips_ok _

theorem Slips.ite {condition : Prop} [Decidable condition] {first second : Except Fault α}
    (whenTrue : Slips first) (whenFalse : Slips second) :
    Slips (if condition then first else second) := by
  split
  · exact whenTrue
  · exact whenFalse

end Calculation

open Calculation

/-! ### Numbers -/

namespace Num

variable {x y : Num}

theorem toDouble_slips : Slips x.toDouble := by
  cases x with
  | float => exact slips_ok _
  | int n => exact .ite (slips_error (by decide)) (slips_ok _)

theorem settle_slips : Slips x.settle := by
  cases x with
  | float => exact slips_ok _
  | int n => exact .ite toDouble_slips.map (slips_ok _)

theorem combine_slips {onInts : Int → Int → Int} {onDoubles : Double → Double → Double} :
    Slips (combine onInts onDoubles x y) := by
  unfold combine
  split
  · exact slips_ok _
  · exact toDouble_slips.andThen fun _ => toDouble_slips.andThen fun _ => slips_pure _

private theorem quotient_slips : Slips (quotient x y) := by
  unfold quotient
  split
  · exact .ite (slips_error (by decide)) (.ite settle_slips (slips_ok _))
  · exact toDouble_slips.andThen fun _ => toDouble_slips.andThen fun _ => slips_pure _

theorem div_slips : Slips (div x y) :=
  .ite (.ite (slips_ok _) (slips_ok _)) quotient_slips

theorem rem_slips : Slips (rem x y) := by
  apply Slips.ite (slips_ok _)
  apply Slips.ite (slips_ok _)
  split
  · exact slips_ok _
  · exact toDouble_slips.andThen fun _ => toDouble_slips.andThen fun _ => slips_pure _

theorem overflowingPower_slips : Slips (overflowingPower x y) := by
  have isEven : Slips (isEven y) := toDouble_slips.andThen fun _ => slips_pure _
  exact .ite (slips_pure _) (isEven.andThen fun _ => slips_pure _)

private theorem doublePower_slips {a b : Double} : Slips (doublePower a b) := by
  apply Slips.ite (slips_ok _)
  split
  · exact overflowingPower_slips
  · exact slips_ok _

theorem pow_slips : Slips (pow x y) := by
  have asDoubles : ∀ x y, Slips (pow.asDoubles x y) := by
    intro x y
    unfold pow.asDoubles
    split
    · exact doublePower_slips
    · exact overflowingPower_slips
  apply Slips.ite (slips_ok _)
  apply Slips.ite (slips_ok _)
  split
  · exact .ite settle_slips (asDoubles _ _)
  · exact asDoubles _ _

theorem scriptText_slips : Slips x.scriptText := by
  cases x with
  | float => exact slips_ok _
  | int n => exact .ite (slips_ok _) toDouble_slips.map

theorem literalText_slips : Slips x.literalText := by
  cases x with
  | float => exact .ite (slips_ok _) scriptText_slips
  | int n =>
      show Slips (Num.int n).scriptText
      exact scriptText_slips

end Num

/-! ### Numerals and string literals -/

namespace Numeral

theorem require_slips {α : Type} {result : Option α} : Slips (require result) := by
  cases result with
  | some => exact slips_ok _
  | none => exact slips_error (by decide)

private theorem unsignedLiteral_slips {text : Text} : Slips (unsignedLiteral text) := by
  apply Slips.ite (slips_ok _)
  apply Slips.ite (slips_ok _)
  apply Slips.ite
  · exact require_slips.andThen fun _ => Num.settle_slips
  · apply Slips.ite
    · exact require_slips.andThen fun _ => Num.settle_slips
    · exact require_slips.andThen fun _ => slips_pure _

private theorem signedLiteral_slips {text : Text} : Slips (signedLiteral text) := by
  induction text using signedLiteral.induct with
  | case1 rest induction => exact induction.andThen fun _ => slips_pure _
  | case2 text notSigned =>
      rw [signedLiteral]
      · exact unsignedLiteral_slips
      · exact notSigned

theorem literal_slips {text : Text} : Slips (literal text) :=
  signedLiteral_slips

theorem ofString_slips {text : Text} : Slips (ofString text) := by
  unfold ofString
  apply Slips.ite (slips_ok _)
  apply Slips.ite (slips_ok _)
  apply Slips.ite
  · apply Slips.ite (slips_ok _)
    split
    · exact Num.settle_slips
    · exact slips_ok _
  · apply Slips.ite (slips_ok _)
    apply Slips.ite <;> split <;> first | exact slips_ok _ | exact Num.settle_slips

end Numeral

namespace StringLiteral

theorem codePoint_slips {n : Int} : Slips (codePoint n) :=
  .ite (slips_error (by decide)) (.ite (slips_error (by decide)) Numeral.require_slips)

theorem hexadecimal_slips {digits : Text} : Slips (hexadecimal digits) :=
  Numeral.require_slips

theorem codePoint_hexadecimal_slips {α : Type} {digits : Text} {next : CodePoint → α} :
    Slips (do return next (← codePoint (← hexadecimal digits))) :=
  hexadecimal_slips.andThen fun _ => codePoint_slips.andThen fun _ => slips_pure _

private theorem longEscape_slips {text : Text} : Slips (longEscape text) :=
  .ite ((slips_error (by decide)).andThen fun (_ : Unit) => codePoint_hexadecimal_slips)
    codePoint_hexadecimal_slips

private theorem shortEscape_slips {text : Text} : Slips (shortEscape text) := by
  have lowHalf : Slips (lowHalf? (text.drop 4)) := by
    unfold lowHalf?
    split
    · exact hexadecimal_slips.andThen fun _ => slips_pure _
    · exact slips_ok _
  apply hexadecimal_slips.andThen
  intro code
  apply Slips.ite
  · apply lowHalf.andThen
    intro low
    cases low <;> exact codePoint_slips.andThen fun _ => slips_pure _
  · exact codePoint_slips.andThen fun _ => slips_pure _

private theorem escape_slips {text : Text} : Slips (escape text) := by
  unfold escape
  split
  · exact slips_ok _
  · exact .ite (slips_ok _) (slips_ok _)
  · exact codePoint_hexadecimal_slips
  · exact longEscape_slips
  · exact shortEscape_slips
  · exact slips_ok _
  · exact .ite (slips_ok _) (slips_ok _)

private theorem unescapeFrom_slips {skip : Nat} {text : Text} : Slips (unescapeFrom skip text) := by
  induction skip, text using unescapeFrom.induct with
  | case1 => exact slips_ok _
  | case2 skip point rest induction => exact induction
  | case3 rest induction =>
      apply escape_slips.andThen
      rintro ⟨meaning, width⟩
      exact (induction width).andThen fun _ => slips_pure _
  | case4 point rest notEscape induction =>
      rw [unescapeFrom]
      · exact induction.andThen fun _ => slips_pure _
      · exact notEscape

theorem unescape_slips {body : Text} : Slips (unescape body) :=
  unescapeFrom_slips

theorem decode_slips {raw : Text} : Slips (decode raw) :=
  unescape_slips

end StringLiteral

/-! ### Values -/

namespace Value

variable {value other : Value}

mutual

theorem toText_slips (value : Value) : Slips value.toText := by
  rw [toText.eq_def]
  split
  case h_4 => exact Num.scriptText_slips.map
  case h_6 items | h_7 items => exact (toTexts_slips items).andThen fun _ => slips_pure _
  all_goals exact slips_ok _

theorem toTexts_slips (items : List Value) : Slips (toTexts items) := by
  rw [toTexts.eq_def]
  split
  case h_1 => exact slips_ok _
  case h_2 rest | h_3 rest => exact (toTexts_slips rest).andThen fun _ => slips_pure _
  case h_4 item rest _ _ =>
    exact (toText_slips item).andThen fun _ => (toTexts_slips rest).andThen fun _ => slips_pure _

end

theorem toNumber_slips : Slips value.toNumber := by
  unfold toNumber
  split
  case h_5 => exact Numeral.ofString_slips
  case h_6 | h_7 => exact (toText_slips _).andThen fun _ => Numeral.ofString_slips
  all_goals exact slips_ok _

theorem toPrimitive_slips : Slips value.toPrimitive := by
  unfold toPrimitive
  split
  · exact (toText_slips _).map
  · exact (toText_slips _).map
  · exact (toText_slips _).map
  · exact slips_ok _

theorem toInt32_slips : Slips value.toInt32 :=
  toNumber_slips.andThen fun _ => slips_pure _

theorem toUInt32_slips : Slips value.toUInt32 :=
  toInt32_slips.andThen fun _ => slips_pure _

theorem propertyKey_slips : Slips value.propertyKey :=
  .ite (toText_slips value).map (slips_ok _)

theorem looseEquals_slips : Slips (looseEquals value other) := by
  have toComparable : ∀ value : Value, Slips value.toComparable := by
    intro value
    unfold Value.toComparable
    split
    · exact slips_ok _
    · exact toPrimitive_slips
  apply Slips.ite (slips_ok _)
  apply Slips.ite (slips_ok _)
  apply (toComparable value).andThen
  intro first
  apply (toComparable other).andThen
  intro second
  split
  · exact slips_pure _
  · exact slips_pure _
  · exact Numeral.ofString_slips.andThen fun _ => slips_pure _
  · exact Numeral.ofString_slips.andThen fun _ => slips_pure _
  · exact slips_pure _

theorem compareBy_slips {relation : Relation} : Slips (compareBy relation value other) := by
  have unitsOf : ∀ text, Slips (unitsOf text) := by
    intro text
    unfold Value.unitsOf
    split
    · exact slips_ok _
    · exact slips_error (by decide)
  apply toPrimitive_slips.andThen
  intro first
  apply toPrimitive_slips.andThen
  intro second
  split
  · exact (unitsOf _).andThen fun _ => (unitsOf _).andThen fun _ => slips_pure _
  · exact toNumber_slips.andThen fun _ => toNumber_slips.andThen fun _ => slips_pure _

end Value

/-! ### Operators -/

namespace BinaryOp

variable {a b : Value}

private theorem saturate_slips {result : Except Fault Num} (slips : Slips result) :
    Slips (saturate result) := by
  have settled : Slips (result.bind Num.settle) := slips.andThen fun _ => Num.settle_slips
  unfold saturate
  split
  · exact slips_ok _
  · exact settled

private theorem addValues_slips : Slips (addValues a b) := by
  apply Value.toPrimitive_slips.andThen
  intro first
  apply Value.toPrimitive_slips.andThen
  intro second
  split
  · exact (Value.toText_slips _).andThen fun _ => slips_pure _
  · exact (Value.toText_slips _).andThen fun _ => slips_pure _
  · apply Value.toNumber_slips.andThen
    intro x
    apply Value.toNumber_slips.andThen
    intro y
    exact Num.combine_slips.andThen fun _ => Num.settle_slips.andThen fun _ => slips_pure _

theorem onNumbers_slips {op : Num → Num → Except Fault Num} (slips : ∀ x y, Slips (op x y)) :
    Slips (onNumbers op a b) :=
  Value.toNumber_slips.andThen fun x => Value.toNumber_slips.andThen fun y =>
    (slips x y).andThen fun _ => slips_pure _

private theorem onBits_slips {op : Bool → Bool → Bool} : Slips (onBits op a b) :=
  Value.toInt32_slips.andThen fun _ => Value.toInt32_slips.andThen fun _ => slips_pure _

theorem shiftCount_slips : Slips (shiftCount a) :=
  Value.toUInt32_slips.andThen fun _ => slips_pure _

theorem apply_slips {op : BinaryOp} : Slips (op.apply a b) := by
  cases op with
  | add => exact addValues_slips
  | sub | mul => exact onNumbers_slips fun _ _ => saturate_slips Num.combine_slips
  | div => exact onNumbers_slips fun _ _ => Num.div_slips
  | rem => exact onNumbers_slips fun _ _ => Num.rem_slips
  | pow => exact onNumbers_slips fun _ _ => Num.pow_slips
  | looseEqual | looseUnequal => exact Value.looseEquals_slips.map
  | strictEqual | strictUnequal => exact slips_ok _
  | compare => exact Value.compareBy_slips.map
  | shiftLeft | shiftRight =>
      exact Value.toInt32_slips.andThen fun _ => shiftCount_slips.andThen fun _ => slips_pure _
  | shiftRightUnsigned =>
      exact Value.toUInt32_slips.andThen fun _ => shiftCount_slips.andThen fun _ => slips_pure _
  | bitAnd | bitOr | bitXor => exact onBits_slips

end BinaryOp

theorem UnaryOp.apply_slips {op : UnaryOp} {value : Value} : Slips (op.apply value) := by
  cases op with
  | not | typeOf => exact slips_ok _
  | minus | plus => exact Value.toNumber_slips.andThen fun _ => slips_pure _
  | bitNot => exact Value.toInt32_slips.andThen fun _ => slips_pure _

/-! ### Properties -/

namespace Property

variable {name : Text}

theorem digitsValue_slips : Slips (digitsValue name) :=
  Numeral.require_slips.andThen fun _ => slips_pure _

private theorem ofItems_slips {names : List String} {items : List Value} :
    Slips (ofItems names items name) := by
  have index : Slips (index? name) :=
    .ite (slips_pure _) (digitsValue_slips.andThen fun _ => slips_pure _)
  apply Slips.ite (slips_pure _)
  apply index.andThen
  intro index
  cases index <;> exact slips_pure _

theorem read_slips {receiver : Value} : Slips (read receiver name) := by
  unfold read
  split
  case h_1 => split <;> exact slips_ok _
  case h_2 | h_3 | h_4 => exact ofItems_slips
  case h_5 => exact slips_ok _

theorem contains?_slips {key container : Value} : Slips (contains? key container) := by
  apply Value.propertyKey_slips.andThen
  intro known
  split
  case h_1 => exact slips_pure _
  case h_2 =>
    split
    case h_1 => exact slips_pure _
    case h_2 | h_3 =>
      exact .ite (slips_pure _)
        (.ite (slips_pure _) (digitsValue_slips.andThen fun _ => slips_pure _))
    case h_4 => exact slips_pure _

end Property

/-! ### Methods -/

namespace Method

variable {α β : Type}

/-- A method gives a value, declines or slips. -/
def Settles (result : Result α) : Prop :=
  ∀ fault, result = .error (.fault fault) → Slip fault

namespace Settles

theorem of_ok (value : α) : Settles (.ok value) :=
  nofun

theorem of_pure (value : α) : Settles (pure value) :=
  nofun

theorem of_decline {reason : Decline} : Settles (.error (.declined reason) : Result α) :=
  nofun

theorem of_throw {reason : Decline} : Settles (throw (.declined reason) : Result α) :=
  nofun

theorem of_declined {reason : Decline} {next : β → Result α} :
    Settles (throw (.declined reason) >>= next) :=
  nofun

theorem bind {first : Result β} {next : β → Result α} (begins : Settles first)
    (goes : ∀ value, Settles (next value)) : Settles (first >>= next) := by
  cases first with
  | error stop =>
      intro other fails
      cases fails
      exact begins other rfl
  | ok value => exact goes value

theorem ite {condition : Prop} [Decidable condition] {first second : Result α}
    (whenTrue : Settles first) (whenFalse : Settles second) :
    Settles (if condition then first else second) := by
  split
  · exact whenTrue
  · exact whenFalse

theorem of_calculate {calculated : Except Fault α} (slips : Slips calculated) :
    Settles (calculate calculated) := by
  cases calculated with
  | error fault =>
      intro other fails
      cases fails
      exact slips fault rfl
  | ok value => exact of_ok value

end Settles

variable {text : Text} {args : List Value} {index : Nat} {number : Num} {items : List Value}

theorem intArgument_settles {default : Int} : Settles (intArgument args index default) := by
  unfold intArgument
  split
  case h_1 | h_2 => exact .of_ok _
  case h_3 =>
    apply Settles.bind (.of_calculate Value.toNumber_slips)
    intro number
    split
    · exact .of_pure _
    · exact .of_pure _

theorem textArgument_settles {default : Text} : Settles (textArgument args index default) := by
  unfold textArgument
  split
  · exact .of_ok _
  · exact .ite (.of_calculate (Value.toText_slips _)) .of_decline

theorem repeated_slips {count : Nat} : Slips (repeated text count) :=
  .ite (slips_error (by decide)) (.ite (slips_ok _) (.ite (slips_error (by decide)) (slips_ok _)))

theorem padding_settles : Settles (padding text args) :=
  .bind intArgument_settles fun _ => .bind textArgument_settles fun _ => .ite (.of_pure _)
    (.bind (.of_calculate repeated_slips) fun _ => .of_pure _)

theorem stringRepeat_settles : Settles (stringRepeat text args) := by
  apply Settles.bind intArgument_settles
  intro count
  apply Settles.ite .of_declined
  exact .bind (.of_calculate repeated_slips) fun _ => .of_pure _

private theorem mapM_toText_slips (values : List Value) : Slips (values.mapM Value.toText) := by
  induction values with
  | nil => exact slips_pure _
  | cons value rest induction =>
      rw [List.mapM_cons]
      exact (Value.toText_slips value).andThen fun _ => induction.andThen fun _ => slips_pure _

theorem stringSplit_settles : Settles (stringSplit text args) := by
  unfold stringSplit
  split
  case h_1 | h_2 => exact .of_pure _
  case h_3 =>
    apply Settles.bind textArgument_settles
    intro separator
    dsimp only
    split
    case h_1 | h_2 => exact .of_pure _
    case h_3 => exact .bind intArgument_settles fun _ => .of_pure _

theorem replacement_settles : Settles (replacement args) := by
  unfold replacement
  split
  · exact .ite .of_decline (.of_ok _)
  · exact .of_decline

/-- Every method of strings gives a value, declines or slips. -/
theorem ofStrings_settle :
    ∀ entry, entry ∈ ofStrings → ∀ text args, Settles (entry.2 text args) := by
  have asked : ∀ {args index default}, Settles (intArgument args index default) :=
    intArgument_settles
  have part : ∀ {args}, Settles (needle args) := textArgument_settles
  have alone : ∀ {f : Text → Text} text args, Settles (plain f text args) :=
    fun _ _ => .of_ok _
  have texts : ∀ {args : List Value}, Settles (calculate (args.mapM Value.toText)) :=
    .of_calculate (mapM_toText_slips _)
  simp only [ofStrings, List.forall_mem_cons]
  exact ⟨alone, alone, alone, alone, alone,
    fun _ _ => .bind part fun _ => .bind asked fun _ => .of_pure _,
    fun _ _ => .bind part fun _ => .bind asked fun _ => .of_pure _,
    fun _ _ => .bind asked fun _ => .bind part fun _ => .of_pure _,
    fun _ _ => .bind part fun _ => .bind asked fun _ => .ite (.of_pure _) (.of_pure _),
    fun _ _ => .bind part fun _ => .of_pure _,
    fun _ _ => .bind asked fun _ => .bind asked fun _ => .of_pure _,
    fun _ _ => .bind asked fun _ => .bind asked fun _ => .of_pure _,
    fun _ _ => .bind asked fun _ => .of_pure _,
    fun _ _ => .bind asked fun _ => .of_pure _,
    fun _ _ => .bind asked fun _ => .of_pure _,
    fun _ _ => stringRepeat_settles,
    fun _ _ => .bind padding_settles fun _ => .of_pure _,
    fun _ _ => .bind padding_settles fun _ => .of_pure _,
    fun _ _ => .bind texts fun _ => .of_pure _,
    fun _ _ => stringSplit_settles,
    fun _ _ => .bind replacement_settles fun _ => .of_pure _,
    fun _ _ => .bind replacement_settles fun _ => .of_pure _,
    alone, nofun⟩

private theorem isAmong_slips {value : Value} (items : List Value) : Slips (isAmong value items)
    := by
  have bothNaN : ∀ item, Slips (bothNaN item value) := by
    intro item
    unfold Method.bothNaN
    split
    · exact Num.toDouble_slips.andThen fun _ =>
        .ite (Num.toDouble_slips.andThen fun _ => slips_pure _) (slips_pure _)
    · exact slips_ok _
  induction items with
  | nil => exact slips_ok _
  | cons item rest induction =>
      exact .ite (slips_pure _) ((bothNaN item).andThen fun _ => .ite (slips_pure _) induction)

private theorem arrayJoin_settles : Settles (arrayJoin items args) := by
  have joins : ∀ separator, Settles (do
      return Value.str (Text.join separator (← calculate (Value.toTexts items)))) :=
    fun _ => .bind (.of_calculate (Value.toTexts_slips items)) fun _ => .of_pure _
  unfold arrayJoin
  dsimp only
  split
  case h_1 | h_2 => exact joins _
  case h_3 => exact .bind textArgument_settles joins

/-- Every method of arrays gives a value, declines or slips. -/
theorem ofArrays_settle :
    ∀ entry, entry ∈ ofArrays → ∀ items args, Settles (entry.2 items args) := by
  have asked : ∀ {args index default}, Settles (intArgument args index default) :=
    intArgument_settles
  simp only [ofArrays, List.forall_mem_cons]
  exact ⟨fun _ _ => arrayJoin_settles,
    fun _ _ => .of_ok _,
    fun _ _ => .of_ok _,
    fun _ _ => .bind (.of_calculate (isAmong_slips _)) fun _ => .of_pure _,
    fun _ _ => .bind asked fun _ => .bind asked fun _ => .of_pure _,
    fun _ _ => .of_ok _,
    fun _ _ => .bind asked fun _ => .of_pure _,
    fun _ _ => .bind (.of_calculate (Value.toText_slips _)) fun _ => .of_pure _,
    nofun⟩

theorem scriptText_settles : Settles (do return Value.string (← calculate number.scriptText)) :=
  .bind (.of_calculate Num.scriptText_slips) fun _ => .of_pure _

theorem numberToFixed_settles : Settles (numberToFixed number args) := by
  apply Settles.bind intArgument_settles
  intro places
  apply Settles.ite .of_declined
  apply Settles.bind (.of_calculate Num.toDouble_slips)
  intro double
  dsimp only
  split
  · exact .ite scriptText_settles (.of_pure _)
  · exact scriptText_settles

private theorem numberToString_settles : Settles (numberToString number args) := by
  apply Settles.bind intArgument_settles
  intro radix
  apply Settles.ite scriptText_settles
  apply Settles.ite .of_declined
  apply Settles.bind (.of_calculate Num.toDouble_slips)
  intro double
  split
  · exact .of_pure _
  · exact .of_throw

theorem mem_of_pick {name : Text} {methods : List (String × α)} {method : α}
    (found : find?.pick name methods = some method) :
    ∃ entry, entry ∈ methods ∧ entry.2 = method := by
  obtain ⟨entry, isEntry, rfl⟩ := Option.map_eq_some_iff.mp found
  exact ⟨entry, List.mem_of_find?_eq_some isEntry, rfl⟩

/-- Every method gives a value, declines or slips. -/
theorem find?_settles {receiver : Value} {name : Text} {method : List Value → Result Value}
    (found : find? receiver name = some method) (args : List Value) : Settles (method args) := by
  unfold find? at found
  split at found
  case h_1 text =>
    obtain ⟨picked, isPicked, rfl⟩ := Option.map_eq_some_iff.mp found
    obtain ⟨entry, there, rfl⟩ := mem_of_pick isPicked
    exact ofStrings_settle entry there text args
  case h_2 items | h_3 items =>
    obtain ⟨picked, isPicked, rfl⟩ := Option.map_eq_some_iff.mp found
    obtain ⟨entry, there, rfl⟩ := mem_of_pick isPicked
    exact ofArrays_settle entry there items args
  case h_4 number =>
    obtain ⟨picked, isPicked, rfl⟩ := Option.map_eq_some_iff.mp found
    obtain ⟨entry, there, rfl⟩ := mem_of_pick isPicked
    simp only [ofNumbers, List.mem_cons, List.not_mem_nil, or_false] at there
    obtain rfl | rfl := there
    · exact numberToFixed_settles
    · exact numberToString_settles
  case h_5 entries =>
    split at found
    case isTrue =>
      cases found
      exact .bind textArgument_settles fun _ => .of_pure _
    case isFalse => cases found
  case h_6 => cases found

end Method

end ScriptFold
