import Mathlib.Data.List.DropRight

/-!
# Texts cut at a separator

Paths and subjects are texts whose pieces stand between occurrences of one
separating character.  This file cuts such texts, trims them, and computes
the pieces of a text that was put together from others.
-/

namespace Litefunctions

namespace SeparatedText

/-- The pieces of a text between the occurrences of `separator`; a text
without it is its own only piece. -/
def pieces (separator : Char) (text : String) : List String :=
  (text.toList.splitOn separator).map String.ofList

/-- The text without the leading and trailing occurrences of `char`. -/
def trim (char : Char) (text : String) : String :=
  String.ofList ((text.toList.dropWhile (· == char)).rdropWhile (· == char))

section Splitting

variable {Symbol : Type}

/-- The pieces of a text cut at all symbols of a kind. -/
theorem notMem_splitOnP {separates : Symbol → Bool} {text piece : List Symbol}
    (member : piece ∈ text.splitOnP separates) : ∀ symbol ∈ piece, separates symbol = false := by
  induction text generalizing piece with
  | nil =>
      rw [List.splitOnP_nil, List.mem_singleton] at member
      simp [member]
  | cons first text ih =>
      rw [List.splitOnP_cons_eq_if_modifyHead] at member
      split at member
      · rcases List.mem_cons.mp member with rfl | member
        · simp
        · exact ih member
      · next other =>
          cases cut : text.splitOnP separates with
          | nil => exact absurd cut (List.splitOnP_ne_nil _ _)
          | cons head rest =>
              rw [cut, List.modifyHead_cons] at member
              rcases List.mem_cons.mp member with rfl | member
              · have headPlain : ∀ symbol ∈ head, separates symbol = false :=
                  ih (cut ▸ List.mem_cons_self)
                intro symbol symbolMember
                rcases List.mem_cons.mp symbolMember with rfl | symbolMember
                · exact eq_false_of_ne_true other
                · exact headPlain symbol symbolMember
              · exact ih (cut ▸ List.mem_cons_of_mem _ member)

variable [BEq Symbol] [LawfulBEq Symbol]

theorem mem_splitOn_iff {separator symbol : Symbol} (other : symbol ≠ separator)
    {text : List Symbol} :
    (∃ piece ∈ text.splitOn separator, symbol ∈ piece) ↔ symbol ∈ text := by
  induction text with
  | nil => simp
  | cons first text ih =>
      rw [List.splitOn_cons_eq_if_modifyHead, List.mem_cons, ← ih]
      split
      · next isSeparator =>
          have notFirst : symbol ≠ first := fun same => other (same.trans (eq_of_beq isSeparator))
          simp [notFirst]
      · cases cut : text.splitOn separator with
        | nil => exact absurd cut (List.splitOn_ne_nil _ _)
        | cons piece rest => simp [or_assoc]

theorem separator_notMem_splitOn {separator : Symbol} {text piece : List Symbol}
    (member : piece ∈ text.splitOn separator) : separator ∉ piece := by
  rw [List.splitOn_eq_splitOnP] at member
  intro inside
  have other := notMem_splitOnP member separator inside
  simp at other

/-- A text without the separator goes to the first piece of what follows it. -/
theorem splitOn_append_of_notMem {separator : Symbol} {front : List Symbol}
    (absent : separator ∉ front) (text : List Symbol) :
    (front ++ text).splitOn separator = (text.splitOn separator).modifyHead (front ++ ·) := by
  induction front with
  | nil =>
      rw [List.nil_append]
      cases text.splitOn separator <;> rfl
  | cons symbol front ih =>
      have other : ¬ (symbol == separator) = true := by
        intro same
        exact absent (eq_of_beq same ▸ List.mem_cons_self)
      rw [List.cons_append, List.splitOn_cons_eq_if_modifyHead, if_neg other,
        ih fun member => absent (List.mem_cons_of_mem symbol member)]
      cases text.splitOn separator <;> rfl

end Splitting

theorem pieces_ne_nil (separator : Char) (text : String) :
    pieces separator text ≠ [] := by
  simp [pieces]

theorem pieces_eq_singleton {separator : Char} {text : String}
    (absent : separator ∉ text.toList) :
    pieces separator text = [text] := by
  simp [pieces, List.splitOn_eq_singleton absent]

/-- A separator between two texts separates their pieces. -/
theorem pieces_append (separator : Char) (first second : String) :
    pieces separator (first ++ String.singleton separator ++ second) =
      pieces separator first ++ pieces separator second := by
  have cut : (first ++ String.singleton separator ++ second).toList =
      first.toList ++ separator :: second.toList := by
    simp
  rw [pieces, cut, List.splitOn_append_cons_self, List.map_append]
  rfl

/-- The other characters of a text are those of its pieces. -/
theorem mem_pieces_iff {separator char : Char} (other : char ≠ separator) {text : String} :
    (∃ piece ∈ pieces separator text, char ∈ piece.toList) ↔ char ∈ text.toList := by
  rw [← mem_splitOn_iff other, pieces]
  simp

/-- A text is its pieces with the separator between them. -/
theorem text_of_pieces {separator : Char} {text : String} {parts : List String}
    (cut : pieces separator text = parts) :
    text.toList = [separator].intercalate (parts.map String.toList) := by
  have joined := @List.intercalate_splitOn _ text.toList _ _ separator
  rw [← cut, pieces, List.map_map]
  have same : String.toList ∘ String.ofList = id := funext fun chars => String.toList_ofList
  rw [same, List.map_id, joined]

theorem eq_of_pieces_singleton {separator : Char} {text piece : String}
    (cut : pieces separator text = [piece]) : text = piece := by
  rw [← String.toList_inj, text_of_pieces cut]
  simp

/-- No piece contains the separator. -/
theorem separator_notMem_pieces {separator : Char} {text piece : String}
    (member : piece ∈ pieces separator text) : separator ∉ piece.toList := by
  obtain ⟨chars, charsMember, rfl⟩ := List.mem_map.mp member
  rw [String.toList_ofList]
  exact separator_notMem_splitOn charsMember

/-- Two texts cut at a separator are equal where the cuts are, or where one
cut is further on and passes over a middle part. -/
theorem append_cons_eq_iff {separator : Char} {first second otherFirst otherSecond : List Char} :
    first ++ separator :: second = otherFirst ++ separator :: otherSecond ↔
      (first = otherFirst ∧ second = otherSecond) ∨
        (∃ middle, first = otherFirst ++ separator :: middle ∧
          otherSecond = middle ++ separator :: second) ∨
        ∃ middle, otherFirst = first ++ separator :: middle ∧
          second = middle ++ separator :: otherSecond := by
  induction first generalizing otherFirst with
  | nil =>
      cases otherFirst with
      | nil => simp
      | cons char otherFirst => simp [eq_comm, and_assoc]
  | cons char first ih =>
      cases otherFirst with
      | nil => simp [eq_comm, and_assoc]
      | cons otherChar otherFirst =>
          simp only [List.cons_append, List.cons.injEq, ih]
          constructor
          · rintro ⟨rfl, same | ⟨middle, extends_, rest⟩ | ⟨middle, extends_, rest⟩⟩
            · exact .inl ⟨⟨rfl, same.1⟩, same.2⟩
            · exact .inr (.inl ⟨middle, ⟨rfl, extends_⟩, rest⟩)
            · exact .inr (.inr ⟨middle, ⟨rfl, extends_⟩, rest⟩)
          · rintro (⟨⟨rfl, same⟩, rest⟩ | ⟨middle, ⟨rfl, extends_⟩, rest⟩ |
              ⟨middle, ⟨rfl, extends_⟩, rest⟩)
            · exact ⟨rfl, .inl ⟨same, rest⟩⟩
            · exact ⟨rfl, .inr (.inl ⟨middle, extends_, rest⟩)⟩
            · exact ⟨rfl, .inr (.inr ⟨middle, extends_, rest⟩)⟩

end SeparatedText

end Litefunctions
