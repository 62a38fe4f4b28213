import Mathlib.Data.List.Infix

/-!
# Texts of paths

Scripts pass the paths of files as lines of text.  A tool that lists paths
quotes the unusual ones, a pattern with one star selects by what stands before
and after it, and an editor of lines removes a part or a suffix.
-/

namespace Litefunctions

namespace PathText

/-- Characters that need no quotes in a list of paths. -/
def isPlain (char : Char) : Bool :=
  ' ' ≤ char ∧ char ≤ '~' ∧ char ≠ '"' ∧ char ≠ '\\'

/-- A byte as a backslash with three octal digits. -/
def octal (byte : UInt8) : List Char :=
  ['\\', Nat.digitChar (byte.toNat / 64), Nat.digitChar (byte.toNat / 8 % 8),
    Nat.digitChar (byte.toNat % 8)]

/-- A character within quotes, as in a string of the language C. -/
def escape (char : Char) : List Char :=
  if isPlain char then [char]
  else
    match char.toNat with
    | 7 => ['\\', 'a']
    | 8 => ['\\', 'b']
    | 9 => ['\\', 't']
    | 10 => ['\\', 'n']
    | 11 => ['\\', 'v']
    | 12 => ['\\', 'f']
    | 13 => ['\\', 'r']
    | 34 => ['\\', '"']
    | 92 => ['\\', '\\']
    | _ => (String.utf8EncodeChar char).flatMap octal

/-- A path as a line of a list of paths. -/
def quote (path : List Char) : List Char :=
  if path.all isPlain then path else '"' :: path.flatMap escape ++ ['"']

/-- The path matches a pattern with one star between two texts. -/
def matchesStar (before after path : List Char) : Bool :=
  before.isPrefixOf path && after.isSuffixOf (path.drop before.length)

/-- The line without the first occurrence of a part. -/
def removeFirst (part : List Char) : List Char → List Char
  | [] => []
  | char :: rest =>
      if part.isPrefixOf (char :: rest) then (char :: rest).drop part.length
      else char :: removeFirst part rest

/-- The line without a suffix. -/
def removeSuffix (suffix line : List Char) : List Char :=
  if suffix.isSuffixOf line then line.take (line.length - suffix.length) else line

theorem quote_of_plain {path : List Char} (plain : ∀ char ∈ path, isPlain char = true) :
    quote path = path :=
  if_pos (List.all_eq_true.mpr plain)

theorem matchesStar_append (before middle after : List Char) :
    matchesStar before after (before ++ middle ++ after) = true := by
  rw [matchesStar, Bool.and_eq_true, List.append_assoc, List.drop_left, List.isPrefixOf_iff_prefix,
    List.isSuffixOf_iff_suffix]
  exact ⟨List.prefix_append _ _, List.suffix_append _ _⟩

theorem removeFirst_append (part rest : List Char) (nonempty : part ≠ []) :
    removeFirst part (part ++ rest) = rest := by
  obtain ⟨char, part, rfl⟩ := List.exists_cons_of_ne_nil nonempty
  have isPrefix : (char :: part).isPrefixOf (char :: (part ++ rest)) = true :=
    List.isPrefixOf_iff_prefix.mpr (List.prefix_append (char :: part) rest)
  rw [List.cons_append, removeFirst, if_pos isPrefix]
  exact List.drop_left

theorem removeFirst_of_not_infix {part line : List Char} (absent : ¬ part <:+: line) :
    removeFirst part line = line := by
  induction line with
  | nil => rfl
  | cons char rest ih =>
      have notPrefix : ¬ part.isPrefixOf (char :: rest) = true :=
        fun isPrefix => absent (List.isPrefixOf_iff_prefix.mp isPrefix).isInfix
      rw [removeFirst, if_neg notPrefix, ih]
      exact fun within => absent (within.trans (List.suffix_cons char rest).isInfix)

theorem removeSuffix_append (line suffix : List Char) :
    removeSuffix suffix (line ++ suffix) = line := by
  have isSuffix : suffix.isSuffixOf (line ++ suffix) = true :=
    List.isSuffixOf_iff_suffix.mpr (List.suffix_append _ _)
  rw [removeSuffix, if_pos isSuffix]
  simp

end PathText

end Litefunctions
