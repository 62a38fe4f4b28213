import Mathlib.Data.List.Basic

/-!
# Bytes as hexadecimal text

Two digits stand for one byte.  Encoding writes lower-case digits; decoding
reads both cases and rejects everything else.
-/

namespace Litefunctions

abbrev Bytes := List UInt8

namespace HexText

def digits : List Char :=
  "0123456789abcdef".toList

/-- The digit of a value below 16. -/
def digit (value : Nat) : Char :=
  digits.getD value '0'

/-- The value of a digit in either case. -/
def digitValue? (char : Char) : Option Nat :=
  if '0' ≤ char ∧ char ≤ '9' then some (char.toNat - '0'.toNat)
  else if 'a' ≤ char ∧ char ≤ 'f' then some (char.toNat - 'a'.toNat + 10)
  else if 'A' ≤ char ∧ char ≤ 'F' then some (char.toNat - 'A'.toNat + 10)
  else none

/-- The byte of two digits. -/
def byte? (high low : Char) : Option UInt8 := do
  let first ← digitValue? high
  let second ← digitValue? low
  return UInt8.ofNat (16 * first + second)

def encodeChars : Bytes → List Char
  | [] => []
  | byte :: bytes => digit (byte.toNat / 16) :: digit (byte.toNat % 16) :: encodeChars bytes

def encode (bytes : Bytes) : String :=
  String.ofList (encodeChars bytes)

def decodeChars : List Char → Option Bytes
  | [] => some []
  | [_] => none
  | high :: low :: rest => do
      let byte ← byte? high low
      let bytes ← decodeChars rest
      return byte :: bytes

/-- The bytes of a text of digit pairs. -/
def decode (text : String) : Option Bytes :=
  decodeChars text.toList

theorem byte?_digit (byte : UInt8) :
    byte? (digit (byte.toNat / 16)) (digit (byte.toNat % 16)) = some byte := by
  have bound : byte.toNat < 256 := byte.toNat_lt
  have values : ∀ value : Fin 16, digitValue? (digit value) = some value.val := by decide
  have high := values ⟨byte.toNat / 16, by omega⟩
  have low := values ⟨byte.toNat % 16, by omega⟩
  simp only at high low
  rw [byte?, high, low]
  have whole : 16 * (byte.toNat / 16) + byte.toNat % 16 = byte.toNat := by omega
  change some (UInt8.ofNat (16 * (byte.toNat / 16) + byte.toNat % 16)) = some byte
  rw [whole, UInt8.ofNat_toNat]

/-- What was encoded is decoded again. -/
theorem decode_encode (bytes : Bytes) : decode (encode bytes) = some bytes := by
  unfold decode encode
  rw [String.toList_ofList]
  induction bytes with
  | nil => rfl
  | cons byte bytes ih => simp [encodeChars, decodeChars, byte?_digit, ih]

/-- A text with a character that is no digit is not decoded. -/
theorem decodeChars_of_mem {char : Char} (noDigit : digitValue? char = none) {chars : List Char}
    (member : char ∈ chars) : decodeChars chars = none := by
  induction chars using decodeChars.induct with
  | case1 => cases member
  | case2 => rfl
  | case3 high low rest ih =>
      simp only [decodeChars, byte?]
      rcases List.mem_cons.mp member with rfl | member
      · simp [noDigit]
      · rcases List.mem_cons.mp member with rfl | member
        · cases digitValue? high <;> simp [noDigit]
        · simp [ih member]

end HexText

end Litefunctions
