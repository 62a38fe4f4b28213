import Mathlib.Data.List.TakeWhile
import Mathlib.Data.List.Forall2

/-!
# Lua patterns

A pattern is a list of items, each a set of bytes with a number of
repetitions.  An item takes as many bytes as it can and gives them back one at
a time until the items after it match.  What a successful match says about the
text is `matchItems_sound`; `matchItems_cons` computes matches in which no item
has to give anything back.
-/

namespace Litefunctions

namespace Lua

scoped instance lawfulBEqBytes : LawfulBEq (List UInt8) :=
  inferInstance

/-- The bytes of an ASCII text. -/
def bytes (text : String) : List UInt8 :=
  text.toList.map fun char => char.toNat.toUInt8

/-- The class `%s`. -/
def isSpace (byte : UInt8) : Bool :=
  byte = 32 ∨ 9 ≤ byte ∧ byte ≤ 13

/-- The class `%S`. -/
def isVisible (byte : UInt8) : Bool :=
  !isSpace byte

/-- The class `%d`. -/
def isDigit (byte : UInt8) : Bool :=
  48 ≤ byte ∧ byte ≤ 57

inductive Repeats where
  | once | oneOrMore | zeroOrMore
  deriving DecidableEq, Repr

/-- One item of a pattern; a captured item stands in parentheses. -/
structure Item where
  accepts : UInt8 → Bool
  repeats : Repeats
  captured : Bool

namespace Item

/-- The item that matches one byte. -/
def literal (byte : UInt8) : Item :=
  ⟨fun other => other = byte, .once, false⟩

def plus (accepts : UInt8 → Bool) : Item :=
  ⟨accepts, .oneOrMore, false⟩

def star (accepts : UInt8 → Bool) : Item :=
  ⟨accepts, .zeroOrMore, false⟩

def capture (accepts : UInt8 → Bool) : Item :=
  ⟨accepts, .oneOrMore, true⟩

/-- The least number of bytes that the item takes. -/
def least (item : Item) : Nat :=
  if item.repeats = .zeroOrMore then 0 else 1

/-- The largest number of bytes of the text that the item can take. -/
def longest (item : Item) (text : List UInt8) : Nat :=
  if item.repeats = .once then min 1 (text.takeWhile item.accepts).length
  else (text.takeWhile item.accepts).length

/-- The item can take exactly this text. -/
def Takes (item : Item) (segment : List UInt8) : Prop :=
  (∀ byte ∈ segment, item.accepts byte = true) ∧ item.least ≤ segment.length ∧
    (item.repeats = .once → segment.length ≤ 1)

end Item

theorem Item.eq_of_takes_literal {byte : UInt8} {segment : List UInt8}
    (takes : (Item.literal byte).Takes segment) : segment = [byte] := by
  obtain ⟨accepted, atLeast, atMost⟩ := takes
  obtain ⟨other, rfl⟩ : ∃ other, segment = [other] :=
    List.length_eq_one_iff.mp (Nat.le_antisymm (atMost rfl) atLeast)
  have same := accepted other List.mem_cons_self
  simp only [literal, decide_eq_true_eq] at same
  rw [same]

theorem Item.takes_singleton {item : Item} {byte : UInt8} (accepted : item.accepts byte = true) :
    item.Takes [byte] := by
  refine ⟨fun other member => ?_, ?_, fun _ => Nat.le_refl 1⟩
  · rw [List.mem_singleton.mp member]
    exact accepted
  · unfold Item.least
    split <;> simp

/-- Match the items at the start of the text: the captures and the rest of the
text.  With `atEnd` the rest must be empty. -/
def matchItems (atEnd : Bool) : List Item → List UInt8 → Option (List (List UInt8) × List UInt8)
  | [], text => if atEnd && !text.isEmpty then none else some ([], text)
  | item :: items, text =>
      (List.range' item.least (item.longest text + 1 - item.least)).reverse.findSome? fun count =>
        (matchItems atEnd items (text.drop count)).map fun found =>
          (if item.captured then text.take count :: found.1 else found.1, found.2)

/-- `string.match` with an anchored pattern. -/
def matchAnchored (atEnd : Bool) (items : List Item) (text : List UInt8) :
    Option (List (List UInt8)) :=
  (matchItems atEnd items text).map Prod.fst

/-- `string.gmatch`; a match must not be empty. -/
def gmatchFrom (items : List Item) : Nat → List UInt8 → List (List (List UInt8))
  | 0, _ => []
  | _ + 1, [] => []
  | fuel + 1, byte :: text =>
      match matchItems false items (byte :: text) with
      | some (captures, rest) => captures :: gmatchFrom items fuel rest
      | none => gmatchFrom items fuel text

def gmatch (items : List Item) (text : List UInt8) : List (List (List UInt8)) :=
  gmatchFrom items text.length text

/-- `string.find` with a plain text: the number of bytes before it. -/
def findPlain (needle : List UInt8) : List UInt8 → Option Nat
  | [] => if needle = [] then some 0 else none
  | byte :: text =>
      if needle.isPrefixOf (byte :: text) then some 0 else (findPlain needle text).map (· + 1)

/-- The value of a decimal text, the part of `tonumber` that concerns digits. -/
def decimal (digits : List UInt8) : Nat :=
  digits.foldl (fun value digit => 10 * value + (digit.toNat - 48)) 0

/-! ### Laws -/

section Laws

variable {atEnd : Bool} {item : Item} {items : List Item} {text rest : List UInt8}
variable {captures : List (List UInt8)}

/-- The segments that the captured items took. -/
def capturesOf : List Item → List (List UInt8) → List (List UInt8)
  | item :: items, segment :: segments =>
      if item.captured then segment :: capturesOf items segments else capturesOf items segments
  | _, _ => []

theorem take_takes {count : Nat} (atLeast : item.least ≤ count) (atMost : count ≤ item.longest text) :
    item.Takes (text.take count) ∧ count ≤ text.length := by
  have inRun : count ≤ (text.takeWhile item.accepts).length := by
    unfold Item.longest at atMost
    split at atMost <;> omega
  have isPrefix := List.takeWhile_prefix (l := text) item.accepts
  have bound : count ≤ text.length := inRun.trans isPrefix.length_le
  refine ⟨⟨fun byte member => ?_, ?_, fun isOnce => ?_⟩, bound⟩
  · have takeEq : text.take count = (text.takeWhile item.accepts).take count := by
      obtain ⟨tail, tailEq⟩ := isPrefix
      nth_rewrite 1 [← tailEq]
      rw [List.take_append_of_le_length inRun]
    rw [takeEq] at member
    exact List.mem_takeWhile_imp (List.mem_of_mem_take member)
  · rw [List.length_take]
    omega
  · unfold Item.longest at atMost
    rw [if_pos isOnce] at atMost
    rw [List.length_take]
    omega

/-- A match splits the text into segments that the items take. -/
theorem matchItems_sound (found : matchItems atEnd items text = some (captures, rest)) :
    ∃ segments, List.Forall₂ Item.Takes items segments ∧ text = segments.flatten ++ rest ∧
      captures = capturesOf items segments ∧ (atEnd = true → rest = []) := by
  induction items generalizing text captures with
  | nil =>
      unfold matchItems at found
      split at found
      · cases found
      · next notEnd =>
          obtain ⟨rfl, rfl⟩ := Prod.mk.inj (Option.some.inj found)
          refine ⟨[], .nil, rfl, rfl, fun isEnd => ?_⟩
          simpa [isEnd] using notEnd
  | cons item items ih =>
      unfold matchItems at found
      obtain ⟨count, member, foundThere⟩ := List.exists_of_findSome?_eq_some found
      rw [List.mem_reverse, List.mem_range'_1] at member
      obtain ⟨⟨later, lateRest⟩, laterFound, same⟩ := Option.map_eq_some_iff.mp foundThere
      obtain ⟨rfl, rfl⟩ := Prod.mk.inj same
      obtain ⟨segments, taken, textEq, capturesEq, ends⟩ := ih laterFound
      obtain ⟨takes, bound⟩ := @take_takes _ text _ member.1 (by omega)
      refine ⟨text.take count :: segments, .cons takes taken, ?_, ?_, ends⟩
      · rw [List.flatten_cons, List.append_assoc, ← textEq, List.take_append_drop]
      · rw [capturesOf, capturesEq]

/-- An item that takes a segment up to a byte that it does not accept, or up to
its one byte, takes it for good if the items after it match. -/
theorem matchItems_cons {segment tail : List UInt8} {found : List (List UInt8) × List UInt8}
    (takes : item.Takes segment)
    (boundary : item.repeats = .once ∨ ∀ byte ∈ tail.head?, item.accepts byte = false)
    (matches_ : matchItems atEnd items tail = some found) :
    matchItems atEnd (item :: items) (segment ++ tail) =
      some (if item.captured then segment :: found.1 else found.1, found.2) := by
  have longestEq : item.longest (segment ++ tail) = segment.length := by
    have runEq : (segment ++ tail).takeWhile item.accepts =
        segment ++ tail.takeWhile item.accepts :=
      List.takeWhile_append_of_pos takes.1
    unfold Item.longest
    rw [runEq, List.length_append]
    split
    · next isOnce =>
        have atMost := takes.2.2 isOnce
        have atLeast : 1 ≤ segment.length := by
          have := takes.2.1
          simp only [Item.least, isOnce, reduceCtorEq, if_false] at this
          exact this
        omega
    · next notOnce =>
        have noMore : tail.takeWhile item.accepts = [] := by
          cases tail with
          | nil => rfl
          | cons byte tail =>
              rw [List.takeWhile_cons, (boundary.resolve_left notOnce) byte rfl]
              rfl
        rw [noMore, List.length_nil, Nat.add_zero]
  unfold matchItems
  rw [longestEq, Nat.succ_sub takes.2.1, List.range'_concat, List.reverse_append]
  have lastCount : item.least + 1 * (segment.length - item.least) = segment.length := by
    have := takes.2.1
    omega
  simp only [lastCount, List.reverse_singleton, List.singleton_append, List.findSome?_cons,
    List.drop_left, List.take_left, matches_, Option.map_some]

/-- Every match that `gmatch` yields is a match of the items somewhere. -/
theorem exists_matchItems_of_mem_gmatch (member : captures ∈ gmatch items text) :
    ∃ front suffix rest, text = front ++ suffix ∧
      matchItems false items suffix = some (captures, rest) := by
  have anywhere : ∀ fuel (text : List UInt8), captures ∈ gmatchFrom items fuel text →
      ∃ front suffix rest, text = front ++ suffix ∧
        matchItems false items suffix = some (captures, rest) := by
    intro fuel
    induction fuel with
    | zero => intro text member; cases member
    | succ fuel ih =>
        intro text member
        cases text with
        | nil => cases member
        | cons byte text =>
            unfold gmatchFrom at member
            split at member
            · next first rest found =>
                rcases List.mem_cons.mp member with rfl | later
                · exact ⟨[], byte :: text, rest, rfl, found⟩
                · obtain ⟨front, suffix, lateRest, rfl, foundLater⟩ := ih rest later
                  obtain ⟨segments, -, textEq, -⟩ := matchItems_sound found
                  refine ⟨segments.flatten ++ front, suffix, lateRest, ?_, foundLater⟩
                  rw [textEq, List.append_assoc]
            · obtain ⟨front, suffix, rest, rfl, found⟩ := ih text member
              exact ⟨byte :: front, suffix, rest, rfl, found⟩
  exact anywhere text.length text member

end Laws

section Gmatch

variable {byte first : UInt8} {items : List Item} {text rest : List UInt8}
variable {captures : List (List UInt8)}

/-- A pattern that begins with a byte matches only where this byte is. -/
theorem matchItems_literal_ne {atEnd : Bool} (other : byte ≠ first) :
    matchItems atEnd (.literal first :: items) (byte :: text) = none := by
  simp [matchItems, Item.longest, Item.least, Item.literal, other]

theorem matchItems_literal_shorter {atEnd : Bool}
    (found : matchItems atEnd (.literal first :: items) text = some (captures, rest)) :
    rest.length < text.length := by
  obtain ⟨segments, taken, textEq, -⟩ := matchItems_sound found
  rw [List.forall₂_cons_left_iff] at taken
  obtain ⟨segment, later, isFirst, -, rfl⟩ := taken
  obtain rfl := Item.eq_of_takes_literal isFirst
  rw [textEq]
  simp only [List.length_append, List.flatten_cons, List.length_singleton]
  omega

theorem gmatchFrom_eq_gmatch {fuel : Nat} (enough : text.length ≤ fuel) :
    gmatchFrom (.literal first :: items) fuel text = gmatch (.literal first :: items) text := by
  have sameFuel : ∀ less more (text : List UInt8), text.length ≤ less → text.length ≤ more →
      gmatchFrom (.literal first :: items) less text =
        gmatchFrom (.literal first :: items) more text := by
    intro less
    induction less with
    | zero =>
        intro more text short _
        obtain rfl := List.eq_nil_of_length_eq_zero (Nat.le_zero.mp short)
        cases more <;> rfl
    | succ less ih =>
        intro more text enoughLess enoughMore
        cases text with
        | nil => cases more <;> rfl
        | cons byte text =>
            rw [List.length_cons] at enoughLess enoughMore
            obtain ⟨fewer, rfl⟩ : ∃ fewer, more = fewer + 1 := ⟨more - 1, by omega⟩
            unfold gmatchFrom
            cases foundEq : matchItems false (.literal first :: items) (byte :: text) with
            | none => exact ih fewer text (by omega) (by omega)
            | some found =>
                have shorter := matchItems_literal_shorter foundEq
                rw [List.length_cons] at shorter
                simp only
                rw [ih fewer found.2 (by omega) (by omega)]
  exact sameFuel fuel text.length text enough (Nat.le_refl _)

theorem gmatch_of_match
    (found : matchItems false (.literal first :: items) (byte :: text) = some (captures, rest)) :
    gmatch (.literal first :: items) (byte :: text) =
      captures :: gmatch (.literal first :: items) rest := by
  have shorter := matchItems_literal_shorter found
  rw [List.length_cons] at shorter
  rw [gmatch, List.length_cons, gmatchFrom, found]
  simp only
  rw [gmatchFrom_eq_gmatch (by omega)]

theorem gmatch_of_not_match
    (notFound : matchItems false (.literal first :: items) (byte :: text) = none) :
    gmatch (.literal first :: items) (byte :: text) = gmatch (.literal first :: items) text := by
  rw [gmatch, List.length_cons, gmatchFrom, notFound]
  rfl

/-- A part without the first byte of the pattern holds no match. -/
theorem gmatch_skip {front : List UInt8} (notIn : first ∉ front) :
    gmatch (.literal first :: items) (front ++ text) = gmatch (.literal first :: items) text := by
  induction front with
  | nil => rfl
  | cons byte front ih =>
      rw [List.mem_cons, not_or] at notIn
      rw [List.cons_append, gmatch_of_not_match (matchItems_literal_ne (Ne.symm notIn.1)),
        ih notIn.2]

end Gmatch

section FindPlain

variable {needle text more : List UInt8} {index : Nat}

theorem findPlain_bound (found : findPlain needle text = some index) :
    index + needle.length ≤ text.length := by
  induction text generalizing index with
  | nil =>
      unfold findPlain at found
      split at found
      · next empty =>
          obtain rfl := Option.some.inj found
          simp [empty]
      · cases found
  | cons byte text ih =>
      unfold findPlain at found
      split at found
      · next isPrefix =>
          obtain rfl := Option.some.inj found
          simpa using (List.isPrefixOf_iff_prefix.mp isPrefix).length_le
      · obtain ⟨before, foundBefore, rfl⟩ := Option.map_eq_some_iff.mp found
        have bound := ih foundBefore
        simp only [List.length_cons]
        omega

/-- Text behind the first occurrence does not matter. -/
theorem findPlain_append_iff :
    findPlain needle text = some index ↔
      findPlain needle (text ++ more) = some index ∧ index + needle.length ≤ text.length := by
  induction text generalizing index with
  | nil =>
      rw [List.nil_append]
      by_cases empty : needle = []
      · subst empty
        cases more <;> simp [findPlain, eq_comm]
      · have positive : 0 < needle.length := List.length_pos_iff.mpr empty
        simp only [findPlain, if_neg empty, List.length_nil]
        apply iff_of_false (by simp)
        intro both
        omega
  | cons byte text ih =>
      rw [List.cons_append]
      unfold findPlain
      simp only [List.isPrefixOf_iff_prefix]
      by_cases isPrefix : needle <+: byte :: text
      · have longer : needle <+: byte :: (text ++ more) :=
          isPrefix.trans (List.prefix_append (byte :: text) more)
        rw [if_pos isPrefix, if_pos longer]
        constructor
        · intro isZero
          obtain rfl := Option.some.inj isZero
          exact ⟨rfl, by simpa using isPrefix.length_le⟩
        · exact fun both => both.1
      · rw [if_neg isPrefix]
        by_cases longer : needle <+: byte :: (text ++ more)
        · -- the needle starts here but is longer than the text
          have short : (byte :: text).length < needle.length := by
            by_contra enough
            have there : needle <+: (byte :: text) ++ more := longer
            exact isPrefix (List.prefix_of_prefix_length_le there (List.prefix_append _ _) (by omega))
          rw [if_pos longer]
          refine iff_of_false (fun found => ?_) fun both => ?_
          · obtain ⟨before, foundBefore, rfl⟩ := Option.map_eq_some_iff.mp found
            have bound := findPlain_bound foundBefore
            simp only [List.length_cons] at short
            omega
          · have bound := both.2
            omega
        · rw [if_neg longer, Option.map_eq_some_iff, Option.map_eq_some_iff]
          constructor
          · rintro ⟨before, found, rfl⟩
            obtain ⟨foundThere, bound⟩ := ih.mp found
            exact ⟨⟨before, foundThere, rfl⟩, by simp only [List.length_cons]; omega⟩
          · rintro ⟨⟨before, found, rfl⟩, bound⟩
            simp only [List.length_cons] at bound
            exact ⟨before, ih.mpr ⟨found, by omega⟩, rfl⟩

/-- A part without the first byte of the needle does not hold its start. -/
theorem findPlain_skip {first : UInt8} {rest front : List UInt8} (notIn : first ∉ front) :
    findPlain (first :: rest) (front ++ text) =
      (findPlain (first :: rest) text).map (· + front.length) := by
  induction front with
  | nil => simp
  | cons byte front ih =>
      have other : ¬ (first :: rest) <+: byte :: (front ++ text) := fun isPrefix =>
        notIn ((List.cons_prefix_cons.mp isPrefix).1 ▸ List.mem_cons_self)
      rw [List.cons_append]
      conv => lhs; unfold findPlain
      rw [if_neg (by rwa [List.isPrefixOf_iff_prefix]),
        ih fun member => notIn (List.mem_cons_of_mem _ member), Option.map_map]
      congr 1

end FindPlain

end Lua

end Litefunctions
