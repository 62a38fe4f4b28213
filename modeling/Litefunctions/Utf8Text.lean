import Mathlib.Data.List.DropRight
import Mathlib.Tactic.SplitIfs

/-!
# Texts of bytes in UTF-8

A text of bytes need not be UTF-8.  Reading it from the front cuts it into
characters and into bytes with which no character starts; such a byte counts as
the replacement character.  White space is trimmed and characters are mapped
piece by piece.
-/

namespace Litefunctions

namespace Utf8Text

open String (utf8EncodeChar)

/-- A character, or a byte with which no character starts. -/
inductive Piece where
  | char (symbol : Char)
  | stray (byte : UInt8)
  deriving DecidableEq, Repr

namespace Piece

def bytes : Piece → List UInt8
  | .char symbol => utf8EncodeChar symbol
  | .stray byte => [byte]

/-- The character that a piece counts as. -/
def rune : Piece → Char
  | .char symbol => symbol
  | .stray _ => '\uFFFD'

end Piece

/-- The character that a text starts with. -/
def firstChar? (text : List UInt8) : Option Char :=
  text.toByteArray.utf8DecodeChar? 0

/-- The pieces of a text without its first bytes. -/
def cutAfter : Nat → List UInt8 → List Piece
  | _, [] => []
  | skipped + 1, _ :: rest => cutAfter skipped rest
  | 0, byte :: rest =>
      match firstChar? (byte :: rest) with
      | some char => .char char :: cutAfter (char.utf8Size - 1) rest
      | none => .stray byte :: cutAfter 0 rest

/-- The pieces of a text. -/
def cut (text : List UInt8) : List Piece :=
  cutAfter 0 text

/-- The characters of a text. -/
def runes (text : List UInt8) : List Char :=
  (cut text).map Piece.rune

/-- The text of some characters. -/
def encode (chars : List Char) : List UInt8 :=
  chars.flatMap utf8EncodeChar

/-- White space. -/
def isSpace (char : Char) : Bool :=
  char.toNat ∈ [0x20, 0x85, 0xA0, 0x1680, 0x2028, 0x2029, 0x202F, 0x205F, 0x3000] ∨
    (0x9 ≤ char.toNat ∧ char.toNat ≤ 0xD) ∨ (0x2000 ≤ char.toNat ∧ char.toNat ≤ 0x200A)

/-- The text without the white space around it. -/
def trimSpace (text : List UInt8) : List UInt8 :=
  (((cut text).dropWhile fun piece => isSpace piece.rune).rdropWhile fun piece =>
    isSpace piece.rune).flatMap Piece.bytes

/-- The text with every character replaced. -/
def mapRunes (replace : Char → Char) (text : List UInt8) : List UInt8 :=
  encode ((runes text).map replace)

/-! ### Cutting -/

theorem firstChar?_encode_append (char : Char) (rest : List UInt8) :
    firstChar? (utf8EncodeChar char ++ rest) = some char := by
  rw [firstChar?, List.toByteArray_append]
  exact ByteArray.utf8DecodeChar?_utf8EncodeChar_append

theorem exists_of_firstChar?_eq_some {text : List UInt8} {char : Char}
    (starts : firstChar? text = some char) : ∃ rest, text = utf8EncodeChar char ++ rest := by
  obtain ⟨rest, whole⟩ := ByteArray.exists_of_utf8DecodeChar?_eq_some starts
  apply Exists.intro rest.data.toList
  have lists := congrArg (fun bytes => bytes.data.toList) whole
  simpa using lists

theorem cutAfter_append (front rest : List UInt8) :
    cutAfter front.length (front ++ rest) = cut rest := by
  induction front with
  | nil => rfl
  | cons byte front ih => exact ih

theorem cut_encode_append (char : Char) (rest : List UInt8) :
    cut (utf8EncodeChar char ++ rest) = .char char :: cut rest := by
  have starts := firstChar?_encode_append char rest
  have size := String.length_utf8EncodeChar char
  cases encoded : utf8EncodeChar char with
  | nil =>
      rw [encoded] at size
      exact absurd size.symm (Nat.pos_iff_ne_zero.mp char.utf8Size_pos)
  | cons first others =>
      rw [encoded] at starts size
      rw [List.cons_append] at starts ⊢
      have skipped : char.utf8Size - 1 = others.length := by
        rw [← size]
        simp
      rw [cut, cutAfter, starts]
      simp only [skipped, cutAfter_append]

theorem cut_stray {byte : UInt8} {rest : List UInt8}
    (startsNone : firstChar? (byte :: rest) = none) :
    cut (byte :: rest) = .stray byte :: cut rest := by
  rw [cut, cutAfter, startsNone]
  rfl

/-- A text is empty, starts with a character, or with a byte that starts none. -/
theorem cases_of_text (text : List UInt8) :
    text = [] ∨ (∃ char rest, text = utf8EncodeChar char ++ rest) ∨
      ∃ byte rest, text = byte :: rest ∧ firstChar? text = none := by
  cases starts : firstChar? text with
  | some char =>
      obtain ⟨rest, whole⟩ := exists_of_firstChar?_eq_some starts
      exact .inr (.inl ⟨char, rest, whole⟩)
  | none =>
      cases text with
      | nil => exact .inl rfl
      | cons byte rest => exact .inr (.inr ⟨byte, rest, rfl, rfl⟩)

@[elab_as_elim]
theorem textInduction {motive : List UInt8 → Prop} (nil : motive [])
    (char : ∀ symbol rest, motive rest → motive (utf8EncodeChar symbol ++ rest))
    (stray : ∀ byte rest, firstChar? (byte :: rest) = none → motive rest → motive (byte :: rest))
    (text : List UInt8) : motive text := by
  induction size : text.length using Nat.strong_induction_on generalizing text with
  | _ length ih =>
      rcases cases_of_text text with rfl | ⟨symbol, rest, rfl⟩ | ⟨byte, rest, rfl, starts⟩
      · exact nil
      · apply char
        apply ih rest.length _ rest rfl
        have positive := symbol.utf8Size_pos
        rw [List.length_append, String.length_utf8EncodeChar] at size
        omega
      · apply stray byte rest starts
        apply ih rest.length _ rest rfl
        rw [List.length_cons] at size
        omega

theorem cut_encode (chars : List Char) : cut (encode chars) = chars.map .char := by
  induction chars with
  | nil => rfl
  | cons char chars ih =>
      rw [encode, List.flatMap_cons, cut_encode_append, List.map_cons]
      exact congrArg _ ih

/-- Reading what was written. -/
theorem runes_encode (chars : List Char) : runes (encode chars) = chars := by
  rw [runes, cut_encode, List.map_map]
  exact List.map_id chars

theorem runes_mapRunes (replace : Char → Char) (text : List UInt8) :
    runes (mapRunes replace text) = (runes text).map replace :=
  runes_encode _

/-- The bytes of a character behind its first are no ASCII. -/
theorem le_of_mem_tail {char : Char} {byte : UInt8} (member : byte ∈ (utf8EncodeChar char).tail) :
    128 ≤ byte.toNat := by
  have behind : ∀ value, (UInt8.ofNat (value % 64 + 128)).toNat = value % 64 + 128 := by
    intro value
    rw [UInt8.toNat_ofNat']
    omega
  unfold utf8EncodeChar at member
  simp only at member
  split_ifs at member
  all_goals
    simp only [List.tail_cons, List.mem_cons, List.not_mem_nil, or_false] at member
  · rw [member, behind]
    omega
  · rcases member with rfl | rfl
    all_goals
      rw [behind]
      omega
  · rcases member with rfl | rfl | rfl
    all_goals
      rw [behind]
      omega

/-- An ASCII byte ends what stands before it. -/
theorem firstChar?_append_eq_none {front rest : List UInt8} (startsNone : firstChar? front = none)
    (nonempty : front ≠ []) (ascii : ∀ byte ∈ rest.head?, byte.toNat < 128) :
    firstChar? (front ++ rest) = none := by
  cases starts : firstChar? (front ++ rest) with
  | none => rfl
  | some char =>
      obtain ⟨behind, whole⟩ := exists_of_firstChar?_eq_some starts
      rcases List.append_eq_append_iff.mp whole with ⟨middle, charEq, restEq⟩ |
          ⟨middle, frontEq, -⟩
      · cases middle with
        | nil =>
            rw [List.append_nil] at charEq
            rw [← charEq, ← List.append_nil (utf8EncodeChar char), firstChar?_encode_append]
              at startsNone
            cases startsNone
        | cons byte middle =>
            have inTail : byte ∈ (utf8EncodeChar char).tail := by
              rw [charEq, List.tail_append_of_ne_nil nonempty]
              exact List.mem_append_right _ List.mem_cons_self
            have small := ascii byte (by simp [restEq])
            have large := le_of_mem_tail inTail
            omega
      · rw [frontEq, firstChar?_encode_append] at startsNone
        cases startsNone

theorem cut_append {rest : List UInt8} (ascii : ∀ byte ∈ rest.head?, byte.toNat < 128)
    (front : List UInt8) : cut (front ++ rest) = cut front ++ cut rest := by
  induction front using textInduction with
  | nil => rfl
  | char symbol front ih =>
      rw [List.append_assoc, cut_encode_append, cut_encode_append, ih, List.cons_append]
  | stray byte front starts ih =>
      have longer : firstChar? (byte :: (front ++ rest)) = none :=
        firstChar?_append_eq_none starts (List.cons_ne_nil byte front) ascii
      rw [List.cons_append, cut_stray longer, cut_stray starts, ih, List.cons_append]

theorem runes_append {rest : List UInt8} (ascii : ∀ byte ∈ rest.head?, byte.toNat < 128)
    (front : List UInt8) : runes (front ++ rest) = runes front ++ runes rest := by
  rw [runes, cut_append ascii, List.map_append]
  rfl

/-! ### ASCII -/

theorem utf8EncodeChar_of_ascii {byte : UInt8} (ascii : byte.toNat < 128) :
    utf8EncodeChar (Char.ofNat byte.toNat) = [byte] := by
  have valid : byte.toNat.isValidChar := Or.inl (by omega)
  have value : (Char.ofNat byte.toNat).val.toNat = byte.toNat := by
    rw [Char.ofNat, dif_pos valid]
    rfl
  unfold utf8EncodeChar
  simp only [value]
  rw [if_pos (by omega), UInt8.ofNat_toNat]

/-- Only an ASCII character has an ASCII byte. -/
theorem eq_of_mem_utf8EncodeChar {char : Char} {byte : UInt8}
    (member : byte ∈ utf8EncodeChar char) (ascii : byte.toNat < 128) :
    char = Char.ofNat byte.toNat := by
  by_cases small : char.val.toNat ≤ 0x7F
  · have single : utf8EncodeChar char = [UInt8.ofNat char.val.toNat] := by
      unfold utf8EncodeChar
      rw [if_pos small]
    rw [single, List.mem_singleton] at member
    have value : byte.toNat = char.toNat := by
      rw [member, UInt8.toNat_ofNat']
      change char.toNat % 256 = char.toNat
      have bound : char.toNat ≤ 0x7F := small
      omega
    rw [value, Char.ofNat_toNat]
  · have large : ∀ first ∈ (utf8EncodeChar char).head?, 128 ≤ first.toNat := by
      intro first isFirst
      have bound : char.val.toNat < 0x110000 := by
        rcases char.valid with low | high
        · exact lt_trans low (by decide)
        · exact high.2
      unfold utf8EncodeChar at isFirst
      simp only [if_neg small] at isFirst
      split_ifs at isFirst
      all_goals
        rw [List.head?_cons, Option.mem_some_iff] at isFirst
        rw [← isFirst, UInt8.toNat_ofNat']
        omega
    cases encoded : utf8EncodeChar char with
    | nil => simp [encoded] at member
    | cons first others =>
        rw [encoded] at member
        rcases List.mem_cons.mp member with rfl | behind
        · have bound := large byte (by simp [encoded])
          omega
        · have isBehind : byte ∈ (utf8EncodeChar char).tail := by
            rw [encoded]
            exact behind
          have bound := le_of_mem_tail isBehind
          omega

theorem mem_runes_of_ascii {byte : UInt8} {text : List UInt8} (member : byte ∈ text)
    (ascii : byte.toNat < 128) : Char.ofNat byte.toNat ∈ runes text := by
  induction text using textInduction with
  | nil => cases member
  | char symbol rest ih =>
      rw [runes, cut_encode_append, List.map_cons]
      rcases List.mem_append.mp member with inside | behind
      · rw [eq_of_mem_utf8EncodeChar inside ascii]
        exact List.mem_cons_self
      · exact List.mem_cons_of_mem _ (ih behind)
  | stray first rest startsNone ih =>
      rw [runes, cut_stray startsNone, List.map_cons]
      rcases List.mem_cons.mp member with rfl | behind
      · have starts := firstChar?_encode_append (Char.ofNat byte.toNat) rest
        rw [utf8EncodeChar_of_ascii ascii, List.singleton_append, startsNone] at starts
        cases starts
      · exact List.mem_cons_of_mem _ (ih behind)

end Utf8Text

end Litefunctions
