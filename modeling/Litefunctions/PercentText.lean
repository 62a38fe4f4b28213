import Litefunctions.HexText
import Litefunctions.Utf8Text

/-!
# Percent-encoded text

An escape is a percent sign and the two digits of a byte.  Encoding leaves some
characters as they are and escapes the bytes of all others.  Decoding takes
escapes for bytes and every other character for itself, so that a text with an
escape never decodes to itself.
-/

namespace Litefunctions

namespace PercentText

open String (utf8EncodeChar)
open HexText (byte? digitValue?)
open Utf8Text (encode)

/-! ### Encoding -/

def upperDigit (value : Nat) : Char :=
  "0123456789ABCDEF".toList.getD value '0'

def escapeByte (byte : UInt8) : List Char :=
  ['%', upperDigit (byte.toNat / 16), upperDigit (byte.toNat % 16)]

/-- The characters that `encodeURIComponent` leaves as they are. -/
def isUnescaped (char : Char) : Bool :=
  char.isAlphanum || char ∈ ['-', '_', '.', '!', '~', '*', '\'', '(', ')']

def encodeChar (char : Char) : List Char :=
  if isUnescaped char then [char] else (utf8EncodeChar char).flatMap escapeByte

/-- `encodeURIComponent`. -/
def encodeURIComponent (text : String) : String :=
  String.ofList (text.toList.flatMap encodeChar)

/-! ### Decoding -/

/-- The byte of an escape at the front of a text. -/
def escaped? (char : Char) : List Char → Option UInt8
  | high :: low :: _ => if char = '%' then byte? high low else none
  | _ => none

/-- The bytes of a text without its first characters. -/
def decodeAfter : Nat → List Char → Bytes
  | _, [] => []
  | skipped + 1, _ :: rest => decodeAfter skipped rest
  | 0, char :: rest =>
      match escaped? char rest with
      | some byte => byte :: decodeAfter 2 rest
      | none => utf8EncodeChar char ++ decodeAfter 0 rest

def decode (text : List Char) : Bytes :=
  decodeAfter 0 text

def hasEscape : List Char → Bool
  | [] => false
  | char :: rest => (escaped? char rest).isSome || hasEscape rest

theorem escaped?_eq_some {char : Char} {rest : List Char} {byte : UInt8}
    (isEscape : escaped? char rest = some byte) :
    ∃ high low others, char = '%' ∧ rest = high :: low :: others ∧ byte? high low = some byte := by
  match rest, isEscape with
  | high :: low :: others, isEscape =>
      rw [escaped?] at isEscape
      split at isEscape
      · next isPercent => exact ⟨high, low, others, isPercent, rfl, isEscape⟩
      · cases isEscape

theorem decode_cons {char : Char} {rest : List Char} (noEscape : escaped? char rest = none) :
    decode (char :: rest) = utf8EncodeChar char ++ decode rest := by
  rw [decode, decodeAfter, noEscape]
  rfl

theorem decode_escape {high low : Char} {byte : UInt8} (isByte : byte? high low = some byte)
    (rest : List Char) : decode ('%' :: high :: low :: rest) = byte :: decode rest := by
  have isEscape : escaped? '%' (high :: low :: rest) = some byte := isByte
  rw [decode, decodeAfter, isEscape]
  rfl

/-- A text is read escape by escape and character by character. -/
theorem decodeInduction {motive : List Char → Prop} (nil : motive [])
    (escape : ∀ high low byte rest, byte? high low = some byte → motive rest →
      motive ('%' :: high :: low :: rest))
    (plain : ∀ char rest, escaped? char rest = none → motive rest → motive (char :: rest))
    (text : List Char) : motive text := by
  induction size : text.length using Nat.strong_induction_on generalizing text with
  | h size ih =>
      cases text with
      | nil => exact nil
      | cons char rest =>
          cases isEscape : escaped? char rest with
          | none => exact plain char rest isEscape (ih _ (by simp at size; omega) rest rfl)
          | some byte =>
              obtain ⟨high, low, others, rfl, rfl, isByte⟩ := escaped?_eq_some isEscape
              exact escape high low byte others isByte (ih _ (by simp at size; omega) others rfl)

theorem encode_cons (char : Char) (rest : List Char) :
    encode (char :: rest) = utf8EncodeChar char ++ encode rest :=
  List.flatMap_cons

theorem encode_append (front rest : List Char) :
    encode (front ++ rest) = encode front ++ encode rest :=
  List.flatMap_append

/-- Decoding never makes a text longer, and makes it shorter if it has an escape. -/
theorem length_decode (text : List Char) :
    (decode text).length ≤ (encode text).length ∧
      (hasEscape text = true → (decode text).length < (encode text).length) := by
  induction text using decodeInduction with
  | nil => exact ⟨Nat.le_refl _, by simp [hasEscape]⟩
  | escape high low byte rest isByte ih =>
      have lengths : 3 + (encode rest).length ≤
          (encode ('%' :: high :: low :: rest)).length := by
        have highSize := high.utf8Size_pos
        have lowSize := low.utf8Size_pos
        simp only [encode_cons, List.length_append, String.length_utf8EncodeChar]
        have percentSize : '%'.utf8Size = 1 := rfl
        omega
      rw [decode_escape isByte, List.length_cons]
      omega
  | plain char rest noEscape ih =>
      rw [decode_cons noEscape, encode_cons, List.length_append, List.length_append]
      have inRest : hasEscape (char :: rest) = hasEscape rest := by
        rw [hasEscape, noEscape]
        rfl
      rw [inRest]
      constructor
      · exact Nat.add_le_add_left ih.1 _
      · intro isEscaped
        exact Nat.add_lt_add_left (ih.2 isEscaped) _

theorem length_le_of_decode_eq {text other : List Char} (same : decode text = encode other) :
    (encode other).length ≤ (encode text).length :=
  same ▸ (length_decode text).1

/-- Exactly the texts without an escape decode to themselves. -/
theorem decode_eq_encode_iff (text : List Char) :
    decode text = encode text ↔ hasEscape text = false := by
  constructor
  · intro same
    by_contra isEscaped
    have shorter := (length_decode text).2 (by simpa using isEscaped)
    rw [same] at shorter
    exact Nat.lt_irrefl _ shorter
  · intro noEscape
    induction text with
    | nil => rfl
    | cons char rest ih =>
        rw [hasEscape, Bool.or_eq_false_iff, Option.isSome_eq_false_iff,
          Option.isNone_iff_eq_none] at noEscape
        rw [decode_cons noEscape.1, encode_cons, ih noEscape.2]

/-! ### Round trips -/

theorem byte?_upperDigit (byte : UInt8) :
    byte? (upperDigit (byte.toNat / 16)) (upperDigit (byte.toNat % 16)) = some byte := by
  have bound : byte.toNat < 256 := byte.toNat_lt
  have values : ∀ value : Fin 16, digitValue? (upperDigit value) = some value.val := by decide
  have high := values ⟨byte.toNat / 16, by omega⟩
  have low := values ⟨byte.toNat % 16, by omega⟩
  simp only at high low
  rw [byte?, high, low]
  have whole : 16 * (byte.toNat / 16) + byte.toNat % 16 = byte.toNat := by omega
  change some (UInt8.ofNat (16 * (byte.toNat / 16) + byte.toNat % 16)) = some byte
  rw [whole, UInt8.ofNat_toNat]

theorem decode_flatMap_escapeByte (bytes : Bytes) (rest : List Char) :
    decode (bytes.flatMap escapeByte ++ rest) = bytes ++ decode rest := by
  induction bytes with
  | nil => rfl
  | cons byte bytes ih =>
      rw [List.flatMap_cons, List.append_assoc, List.cons_append, ← ih]
      exact decode_escape (byte?_upperDigit byte) _

theorem escaped?_of_ne {char : Char} (other : char ≠ '%') (rest : List Char) :
    escaped? char rest = none := by
  unfold escaped?
  split
  · rw [if_neg other]
  · rfl

theorem isUnescaped_ne {char other : Char} (unescaped : isUnescaped char = true)
    (notUnescaped : isUnescaped other = false) : char ≠ other := by
  rintro rfl
  rw [unescaped] at notUnescaped
  cases notUnescaped

theorem decode_encodeChar_append (char : Char) (rest : List Char) :
    decode (encodeChar char ++ rest) = utf8EncodeChar char ++ decode rest := by
  unfold encodeChar
  split
  · next unescaped =>
      exact decode_cons (escaped?_of_ne (isUnescaped_ne unescaped (by decide)) rest)
  · exact decode_flatMap_escapeByte _ rest

/-- Encoding leaves percent signs and characters that need no escape. -/
theorem mem_encodeChar {char other : Char} (member : other ∈ encodeChar char) :
    other = '%' ∨ isUnescaped other = true := by
  have digit : ∀ value : Fin 16, isUnescaped (upperDigit value) = true := by decide
  unfold encodeChar at member
  split at member
  · next unescaped =>
      obtain rfl := List.mem_singleton.mp member
      exact .inr unescaped
  · obtain ⟨byte, -, inEscape⟩ := List.mem_flatMap.mp member
    have bound : byte.toNat < 256 := byte.toNat_lt
    rw [escapeByte, List.mem_cons, List.mem_cons, List.mem_singleton] at inEscape
    rcases inEscape with isPercent | rfl | rfl
    · exact .inl isPercent
    · exact .inr (digit ⟨byte.toNat / 16, by omega⟩)
    · exact .inr (digit ⟨byte.toNat % 16, by omega⟩)

end PercentText

end Litefunctions
