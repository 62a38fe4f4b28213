import Mathlib.Data.List.TakeWhile

/-!
# Leftmost matches

A pattern reads a value from the beginning of a text.  A search takes the value
at the first place of a text where the pattern has one.  The patterns here are
those of regular expressions whose alternatives and repetitions never have to be
taken back.
-/

namespace Litefunctions.LeftmostMatches

variable {α β : Type*}

/-- The value of a pattern at the first place of a text where it has one. -/
def leftmost (pattern : List α → Option β) : List α → Option β
  | [] => pattern []
  | first :: rest => (pattern (first :: rest)).or (leftmost pattern rest)

/-- The value of the first pattern that has one. -/
def firstOf (patterns : List (List α → Option β)) (text : List α) : Option β :=
  patterns.findSome? fun pattern => pattern text

section Pieces

variable [DecidableEq α]

/-- A fixed beginning, and a pattern behind it. -/
def behind (head : List α) (pattern : List α → Option β) (text : List α) : Option β :=
  if head <+: text then pattern (text.drop head.length) else none

/-- A run of accepted elements that ends at a given other element. -/
def runTo (accepts : α → Bool) (stop : α) (text : List α) : Option (List α) :=
  let run := text.takeWhile accepts
  if run ≠ [] ∧ (text.drop run.length).head? = some stop then some run else none

end Pieces

/-! ### Searches -/

theorem exists_of_leftmost {pattern : List α → Option β} {text : List α} {found : β}
    (isFound : leftmost pattern text = some found) :
    ∃ before rest, text = before ++ rest ∧ pattern rest = some found := by
  induction text with
  | nil => exact ⟨[], [], rfl, isFound⟩
  | cons first rest ih =>
      rw [leftmost, Option.or_eq_some_iff] at isFound
      rcases isFound with here | ⟨-, later⟩
      · exact ⟨[], first :: rest, rfl, here⟩
      · obtain ⟨before, rest, rfl, matched⟩ := ih later
        exact ⟨first :: before, rest, rfl, matched⟩

theorem leftmost_of_pattern {pattern : List α → Option β} {text : List α} {found : β}
    (matched : pattern text = some found) : leftmost pattern text = some found := by
  cases text with
  | nil => exact matched
  | cons first rest => rw [leftmost, matched, Option.some_or]

/-- A search goes over a beginning at whose places the pattern has no value. -/
theorem leftmost_append {pattern : List α → Option β} {before : List α} (rest : List α)
    (unmatched : ∀ ending, ending <:+ before → ending ≠ [] → pattern (ending ++ rest) = none) :
    leftmost pattern (before ++ rest) = leftmost pattern rest := by
  induction before with
  | nil => rfl
  | cons first before ih =>
      have here : pattern (first :: (before ++ rest)) = none :=
        unmatched (first :: before) (List.suffix_refl _) (List.cons_ne_nil _ _)
      rw [List.cons_append, leftmost, here, Option.none_or]
      apply ih
      intro ending isSuffix
      exact unmatched ending (isSuffix.trans (List.suffix_cons _ _))

/-! ### Pieces -/

theorem exists_of_firstOf {patterns : List (List α → Option β)} {text : List α} {found : β}
    (isFound : firstOf patterns text = some found) :
    ∃ pattern ∈ patterns, pattern text = some found :=
  List.exists_of_findSome?_eq_some isFound

theorem firstOf_eq_none_iff {patterns : List (List α → Option β)} {text : List α} :
    firstOf patterns text = none ↔ ∀ pattern ∈ patterns, pattern text = none := by
  rw [firstOf, List.findSome?_eq_none_iff]

/-- Patterns that have no other value than one of them give that value. -/
theorem firstOf_eq_some {patterns : List (List α → Option β)} {text : List α}
    {pattern : List α → Option β} {found : β} (member : pattern ∈ patterns)
    (matched : pattern text = some found)
    (only : ∀ other ∈ patterns, ∀ value ∈ other text, value = found) :
    firstOf patterns text = some found := by
  cases isFirst : firstOf patterns text with
  | none =>
      rw [firstOf_eq_none_iff.mp isFirst pattern member] at matched
      cases matched
  | some value =>
      obtain ⟨other, isOther, gives⟩ := exists_of_firstOf isFirst
      rw [only other isOther value gives]

section Pieces

variable [DecidableEq α]

theorem behind_append (head rest : List α) (pattern : List α → Option β) :
    behind head pattern (head ++ rest) = pattern rest := by
  rw [behind, if_pos (List.prefix_append head rest), List.drop_left]

theorem exists_of_behind {head text : List α} {pattern : List α → Option β} {found : β}
    (isFound : behind head pattern text = some found) :
    ∃ rest, text = head ++ rest ∧ pattern rest = some found := by
  unfold behind at isFound
  split at isFound
  · next isPrefix =>
      obtain ⟨rest, rfl⟩ := isPrefix
      rw [List.drop_left] at isFound
      exact ⟨rest, rfl, isFound⟩
  · cases isFound

/-- Behind a beginning with another first element there is nothing. -/
theorem behind_cons_of_ne {first other : α} (different : first ≠ other) (head rest : List α)
    (pattern : List α → Option β) : behind (first :: head) pattern (other :: rest) = none := by
  rw [behind, if_neg]
  intro isPrefix
  exact different (List.cons_prefix_cons.mp isPrefix).1

variable {accepts : α → Bool} {stop : α}

/-- The run that is read is that before the element it ends at. -/
theorem runTo_append {run : List α} (accepted : ∀ element ∈ run, accepts element = true)
    (refused : accepts stop = false) (rest : List α) :
    runTo accepts stop (run ++ stop :: rest) = if run = [] then none else some run := by
  have read : (run ++ stop :: rest).takeWhile accepts = run := by
    rw [List.takeWhile_append_of_pos accepted, List.takeWhile_cons_of_neg (by simp [refused]),
      List.append_nil]
  rw [runTo, read, List.drop_left]
  by_cases isEmpty : run = []
  · simp [isEmpty]
  · simp [isEmpty]

theorem runTo_eq_some {text run : List α} (isRun : runTo accepts stop text = some run) :
    run ≠ [] ∧ ∀ element ∈ run, accepts element = true := by
  unfold runTo at isRun
  extract_lets read at isRun
  split at isRun
  · next found =>
      obtain rfl := Option.some.inj isRun
      exact ⟨found.1, fun element member => List.mem_takeWhile_imp member⟩
  · cases isRun

end Pieces

end Litefunctions.LeftmostMatches
