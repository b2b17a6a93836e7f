import Mathlib.Data.Int.ModEq
import ScriptFold.Fault
import ScriptFold.Value.Operator

/-!
# Operators on bits work on 32-bit words

The operators on bits wrap unbounded integers, combine their endless bits and wrap the
result.  Here each of them is shown to be the operation on 32-bit words of its name, for
integers of any size.  What carries the proofs is that wrapping an integer reads its word with
a sign (`wrap32_eq`), so that each operator needs to be compared with words only once.
-/

namespace ScriptFold

namespace Bits

/-- A bit of an integer in two's complement. -/
def bit (n : Int) (place : Nat) : Bool :=
  (pattern n).testBit place ^^ isNegative n

private theorem bit_ofPattern (negative : Bool) (n place : Nat) :
    bit (ofPattern negative n) place = (n.testBit place ^^ negative) := by
  cases negative with
  | false => simp [ofPattern, bit, pattern, isNegative]
  | true => simp [ofPattern, bit, pattern, isNegative]

/-- The bits of a combination are the combinations of the bits, those of the sign included. -/
theorem bit_combine (op : Bool → Bool → Bool) (a b : Int) (place : Nat) :
    bit (combine op a b) place = op (bit a place) (bit b place) := by
  have clear : (op (false ^^ isNegative a) (false ^^ isNegative b) ^^
      op (isNegative a) (isNegative b)) = false := by
    simp
  have combined := Nat.testBit_bitwise
    (f := fun x y => op (x ^^ isNegative a) (y ^^ isNegative b) ^^
      op (isNegative a) (isNegative b)) clear (pattern a) (pattern b) place
  rw [combine, bit_ofPattern, combined]
  simp [bit]

/-- The word of an integer holds its lowest bits. -/
theorem getLsbD_ofInt (width : Nat) (n : Int) (place : Nat) :
    (BitVec.ofInt width n).getLsbD place = (decide (place < width) && bit n place) := by
  cases n with
  | ofNat n => simp [bit, pattern, isNegative, BitVec.getLsbD_ofNat]
  | negSucc n =>
      rw [BitVec.ofInt_negSucc_eq_not_ofNat, BitVec.getLsbD_not, BitVec.getLsbD_ofNat]
      by_cases within : place < width
      · simp [bit, pattern, isNegative, within]
      · simp [within]

section Words

variable (a b : Int)

/-- Two integers are combined as their words are, if that goes bit by bit. -/
theorem ofInt_combine {op : Bool → Bool → Bool} {width : Nat}
    {onWords : BitVec width → BitVec width → BitVec width}
    (bitwise : ∀ x y place, (onWords x y).getLsbD place = op (x.getLsbD place) (y.getLsbD place)) :
    BitVec.ofInt width (combine op a b) =
      onWords (BitVec.ofInt width a) (BitVec.ofInt width b) := by
  apply BitVec.eq_of_getLsbD_eq
  intro place within
  rw [bitwise, getLsbD_ofInt, getLsbD_ofInt, getLsbD_ofInt, bit_combine]
  simp only [within, decide_true, Bool.true_and]

theorem ofInt_not : BitVec.ofInt 32 (~~~a) = ~~~BitVec.ofInt 32 a := by
  cases a with
  | ofNat n => exact BitVec.ofInt_negSucc_eq_not_ofNat
  | negSucc n =>
      rw [BitVec.ofInt_negSucc_eq_not_ofNat, BitVec.not_not]
      rfl

theorem ofInt_shiftLeft (count : Nat) :
    BitVec.ofInt 32 (a * (1 <<< count : Nat)) = BitVec.ofInt 32 a <<< count := by
  have power : BitVec.ofInt 32 ((1 <<< count : Nat) : Int) = BitVec.twoPow 32 count := by
    apply BitVec.eq_of_toNat_eq
    rw [Nat.one_shiftLeft, BitVec.ofInt_natCast, BitVec.toNat_ofNat, BitVec.toNat_twoPow]
  rw [BitVec.ofInt_mul, power, BitVec.mul_twoPow_eq_shiftLeft]

end Words

end Bits

namespace Value

/-- A wrapped integer is the signed reading of its word. -/
theorem wrap32_eq (n : Int) : wrap32 n = (BitVec.ofInt 32 n).toInt := by
  rw [BitVec.toInt_ofInt]
  rfl

theorem toInt32_int (n : Int) : (int n).toInt32 = .ok (BitVec.ofInt 32 n).toInt := by
  rw [← wrap32_eq]
  rfl

theorem toUInt32_int (n : Int) : (int n).toUInt32 = .ok (BitVec.ofInt 32 n).toNat := by
  have residue : (BitVec.ofInt 32 n).toInt % 4294967296 = n % 4294967296 := by
    rw [BitVec.toInt_ofInt]
    exact Int.bmod_emod
  rw [toUInt32, toInt32_int, Calculation.ok_bind, residue, BitVec.toNat_ofInt]
  rfl

end Value

namespace BinaryOp

variable (a b : Int)

theorem shiftCount_int : shiftCount (.int b) = .ok ((BitVec.ofInt 32 b).toNat % 32) := by
  rw [shiftCount, Value.toUInt32_int]
  rfl

/-- An operator that goes bit by bit is the one on words that does the same. -/
theorem onBits_int {op : Bool → Bool → Bool} {onWords : BitVec 32 → BitVec 32 → BitVec 32}
    (bitwise : ∀ x y place, (onWords x y).getLsbD place = op (x.getLsbD place) (y.getLsbD place)) :
    onBits op (.int a) (.int b) =
      .ok (.int (onWords (BitVec.ofInt 32 a) (BitVec.ofInt 32 b)).toInt) := by
  have combined := Bits.ofInt_combine (BitVec.ofInt 32 a).toInt (BitVec.ofInt 32 b).toInt bitwise
  rw [BitVec.ofInt_toInt, BitVec.ofInt_toInt] at combined
  simp only [onBits, Value.toInt32_int, Calculation.ok_bind, Value.wrap32_eq, combined]
  rfl

theorem apply_shiftLeft_int : shiftLeft.apply (.int a) (.int b) =
    .ok (.int (BitVec.ofInt 32 a <<< ((BitVec.ofInt 32 b).toNat % 32)).toInt) := by
  have shifted := Bits.ofInt_shiftLeft (BitVec.ofInt 32 a).toInt ((BitVec.ofInt 32 b).toNat % 32)
  rw [BitVec.ofInt_toInt] at shifted
  simp only [apply, Value.toInt32_int, shiftCount_int, Calculation.ok_bind, Value.wrap32_eq,
    shifted]
  rfl

theorem apply_shiftRight_int : shiftRight.apply (.int a) (.int b) =
    .ok (.int ((BitVec.ofInt 32 a).sshiftRight ((BitVec.ofInt 32 b).toNat % 32)).toInt) := by
  simp only [apply, Value.toInt32_int, shiftCount_int, Calculation.ok_bind,
    BitVec.toInt_sshiftRight]
  rfl

theorem apply_shiftRightUnsigned_int : shiftRightUnsigned.apply (.int a) (.int b) =
    .ok (.int (BitVec.ofInt 32 a >>> ((BitVec.ofInt 32 b).toNat % 32)).toNat) := by
  simp only [apply, Value.toUInt32_int, shiftCount_int, Calculation.ok_bind,
    BitVec.toNat_ushiftRight]
  rfl

theorem apply_bitNot_int : UnaryOp.bitNot.apply (.int a) =
    .ok (.int (~~~BitVec.ofInt 32 a).toInt) := by
  have turned := Bits.ofInt_not (BitVec.ofInt 32 a).toInt
  rw [BitVec.ofInt_toInt] at turned
  simp only [UnaryOp.apply, Value.toInt32_int, Calculation.ok_bind, Value.wrap32_eq, turned]
  rfl

/-- On integers of any size, wrapping gives the residue modulo 2^32 in the signed or in the
unsigned range, and the operators on bits are those of 32-bit words: they read the words of
their operands and give the signed value of the resulting word, `>>>` alone the unsigned one.
A shift goes by the lowest five bits of its count. -/
theorem bits_of_words :
    (∃ signed : Int, (Value.int a).toInt32 = .ok signed ∧ -2 ^ 31 ≤ signed ∧ signed < 2 ^ 31 ∧
      Int.ModEq (2 ^ 32) signed a) ∧
    (∃ unsigned : Nat, (Value.int a).toUInt32 = .ok unsigned ∧ unsigned < 2 ^ 32 ∧
      Int.ModEq (2 ^ 32) unsigned a) ∧
    bitAnd.apply (.int a) (.int b) = .ok (.int (BitVec.ofInt 32 a &&& BitVec.ofInt 32 b).toInt) ∧
    bitOr.apply (.int a) (.int b) = .ok (.int (BitVec.ofInt 32 a ||| BitVec.ofInt 32 b).toInt) ∧
    bitXor.apply (.int a) (.int b) = .ok (.int (BitVec.ofInt 32 a ^^^ BitVec.ofInt 32 b).toInt) ∧
    shiftLeft.apply (.int a) (.int b) =
      .ok (.int (BitVec.ofInt 32 a <<< ((BitVec.ofInt 32 b).toNat % 32)).toInt) ∧
    shiftRight.apply (.int a) (.int b) =
      .ok (.int ((BitVec.ofInt 32 a).sshiftRight ((BitVec.ofInt 32 b).toNat % 32)).toInt) ∧
    shiftRightUnsigned.apply (.int a) (.int b) =
      .ok (.int (BitVec.ofInt 32 a >>> ((BitVec.ofInt 32 b).toNat % 32)).toNat) ∧
    UnaryOp.bitNot.apply (.int a) = .ok (.int (~~~BitVec.ofInt 32 a).toInt) := by
  refine ⟨?_, ?_, ?_, ?_, ?_, ?_, ?_, ?_, ?_⟩
  · have residue : Int.ModEq (2 ^ 32) (BitVec.ofInt 32 a).toInt a := by
      rw [BitVec.toInt_ofInt]
      exact Int.bmod_emod
    exact ⟨_, Value.toInt32_int a, BitVec.le_toInt _, BitVec.toInt_lt, residue⟩
  · have residue : Int.ModEq (2 ^ 32) (BitVec.ofInt 32 a).toNat a := by
      have atLeast : 0 ≤ a % ((2 ^ 32 : Nat) : Int) := Int.emod_nonneg a (by decide)
      rw [Int.ModEq, BitVec.toNat_ofInt, Int.toNat_of_nonneg atLeast]
      exact Int.emod_emod a _
    exact ⟨_, Value.toUInt32_int a, BitVec.isLt _, residue⟩
  · exact onBits_int a b fun _ _ _ => BitVec.getLsbD_and
  · exact onBits_int a b fun _ _ _ => BitVec.getLsbD_or
  · exact onBits_int a b fun _ _ _ => BitVec.getLsbD_xor
  · exact apply_shiftLeft_int a b
  · exact apply_shiftRight_int a b
  · exact apply_shiftRightUnsigned_int a b
  · exact apply_bitNot_int a

end BinaryOp

end ScriptFold
