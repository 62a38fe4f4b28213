import Mathlib.Data.Nat.Digits.Defs

/-!
# Decimal text

The digits of a number as bytes, the way `%d` and `JSON.stringify` write them.
-/

namespace Litefunctions

namespace DecimalText

def digitsOf (number : Nat) : List UInt8 :=
  (Nat.toDigits 10 number).map fun char => char.toNat.toUInt8

theorem digitsOf_ne_nil (number : Nat) : digitsOf number ≠ [] := by
  simp [digitsOf]

theorem mem_digitsOf {number : Nat} {byte : UInt8} (member : byte ∈ digitsOf number) :
    48 ≤ byte ∧ byte ≤ 57 := by
  obtain ⟨char, isIn, rfl⟩ := List.mem_map.mp member
  have digit := Nat.isDigit_of_mem_toDigits (by omega) (by omega) isIn
  have bounds : 48 ≤ char.toNat ∧ char.toNat ≤ 57 := by
    simpa [Char.isDigit, UInt32.le_iff_toNat_le] using digit
  have small : char.toNat % 256 = char.toNat := by omega
  constructor
  · rw [UInt8.le_iff_toNat_le]
    simpa [Nat.toUInt8, small] using bounds.1
  · rw [UInt8.le_iff_toNat_le]
    simpa [Nat.toUInt8, small] using bounds.2

/-- A number of two digits or more has a longer text than a byte. -/
theorem one_lt_length_digitsOf {number : Nat} (large : 10 ≤ number) :
    1 < (digitsOf number).length := by
  have notShort : ¬ (Nat.toDigits 10 number).length ≤ 1 := by
    rw [Nat.length_toDigits_le_iff (by omega) (by omega)]
    omega
  simpa [digitsOf] using notShort

end DecimalText

end Litefunctions
