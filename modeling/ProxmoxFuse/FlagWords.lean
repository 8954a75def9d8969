import Mathlib.Data.Nat.Bitwise

/-!
# Single bits of flag words

A flag with one bit is in a word exactly if that bit of the word's value is set,
whichever of the usual tests is used.
-/

namespace FlagWords
variable {flag : UInt32} {i : Nat}

theorem and_toNat (single : flag.toNat = 2 ^ i) (word : UInt32) :
    (word &&& flag).toNat = (word.toNat.testBit i).toNat * 2 ^ i := by
  rw [UInt32.toNat_and, single, Nat.and_two_pow]

theorem and_eq_self_iff (single : flag.toNat = 2 ^ i) (word : UInt32) :
    word &&& flag = flag ↔ word.toNat.testBit i = true := by
  have value := and_toNat single word
  rw [← UInt32.toNat_inj, value, single]
  cases word.toNat.testBit i with
  | true => simp
  | false => simpa using (Nat.two_pow_pos i).ne

theorem and_ne_zero_iff (single : flag.toNat = 2 ^ i) (word : UInt32) :
    word &&& flag ≠ 0 ↔ word.toNat.testBit i = true := by
  have value := and_toNat single word
  rw [Ne, ← UInt32.toNat_inj, value]
  cases word.toNat.testBit i with
  | true => simp
  | false => simp

end FlagWords
