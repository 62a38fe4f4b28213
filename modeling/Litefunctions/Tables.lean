import Mathlib.Data.List.Pairwise

/-!
# Tables with uniqueness constraints

A table is a list of rows no two of which conflict.  What conflicts is part of
its type, so that a table that violates its constraints cannot be written.
Inserting and modifying fail where they would produce such a table.
-/

namespace Litefunctions

/-- Rows in the order of their insertion, no two of which conflict. -/
structure Table (Row : Type) (conflicts : Row → Row → Bool) where
  rows : List Row
  distinct : rows.Pairwise fun first second => conflicts first second = false

namespace Table

variable {Row : Type} {conflicts : Row → Row → Bool}

def empty : Table Row conflicts :=
  ⟨[], List.Pairwise.nil⟩

def single (row : Row) : Table Row conflicts :=
  ⟨[row], List.pairwise_singleton _ _⟩

def find? (table : Table Row conflicts) (wanted : Row → Bool) : Option Row :=
  table.rows.find? wanted

/-- Add a row, unless it conflicts with one of the table. -/
def insert (table : Table Row conflicts) (row : Row) : Option (Table Row conflicts) :=
  if fits : ∀ other ∈ table.rows, conflicts other row = false then
    some ⟨table.rows ++ [row], by
      rw [List.pairwise_append]
      refine ⟨table.distinct, List.pairwise_singleton _ _, ?_⟩
      intro other member added addedMember
      rw [List.mem_singleton.mp addedMember]
      exact fits other member⟩
  else
    none

/-- Remove all rows that are selected. -/
def remove (table : Table Row conflicts) (selected : Row → Bool) : Table Row conflicts :=
  ⟨table.rows.filter fun row => !selected row, table.distinct.filter _⟩

/-- Change all rows that are selected, unless rows then conflict. -/
def modify (table : Table Row conflicts) (selected : Row → Bool) (change : Row → Row) :
    Option (Table Row conflicts) :=
  let changed := table.rows.map fun row => if selected row then change row else row
  if fits : changed.Pairwise fun first second => conflicts first second = false then
    some ⟨changed, fits⟩
  else
    none

variable {table after : Table Row conflicts} {row : Row}
variable {wanted selected : Row → Bool} {change : Row → Row}

theorem eq_of_rows (sameRows : after.rows = table.rows) : after = table := by
  cases after
  cases table
  cases sameRows
  rfl

theorem rows_insert (inserted : table.insert row = some after) :
    after.rows = table.rows ++ [row] := by
  unfold insert at inserted
  split at inserted
  · rw [← Option.some.inj inserted]
  · cases inserted

theorem mem_insert (inserted : table.insert row = some after) {other : Row} :
    other ∈ after.rows ↔ other ∈ table.rows ∨ other = row := by
  rw [rows_insert inserted, List.mem_append, List.mem_singleton]

theorem find?_insert (inserted : table.insert row = some after) :
    after.find? wanted = (table.find? wanted).or (if wanted row then some row else none) := by
  rw [find?, rows_insert inserted, List.find?_append, List.find?_singleton]
  rfl

/-- A row cannot be added exactly when it conflicts with one of the table. -/
theorem insert_eq_none_iff :
    table.insert row = none ↔ ∃ other ∈ table.rows, conflicts other row = true := by
  unfold insert
  split
  · next fits =>
      apply iff_of_false (Option.some_ne_none _)
      rintro ⟨other, member, conflict⟩
      rw [fits other member] at conflict
      cases conflict
  · next unfit => exact iff_of_true rfl (by simpa using unfit)

theorem find?_some (found : table.find? wanted = some row) :
    row ∈ table.rows ∧ wanted row = true :=
  ⟨List.mem_of_find?_eq_some found, List.find?_some found⟩

theorem mem_remove {other : Row} :
    other ∈ (table.remove selected).rows ↔ other ∈ table.rows ∧ selected other = false := by
  simp [remove]

theorem rows_modify (modified : table.modify selected change = some after) :
    after.rows = table.rows.map fun row => if selected row then change row else row := by
  unfold modify at modified
  simp only at modified
  split at modified
  · rw [← Option.some.inj modified]
  · cases modified

/-- A row can replace all rows that it conflicts with, and it is found then. -/
theorem exists_replace (table : Table Row conflicts) (isSelected : selected row = true)
    (covers : ∀ other, selected other = false → conflicts other row = false) :
    ∃ after, (table.remove selected).insert row = some after ∧ after.find? selected = some row := by
  have fits : ∀ other ∈ (table.remove selected).rows, conflicts other row = false :=
    fun other member => covers other (mem_remove.mp member).2
  have inserted : ∃ after, (table.remove selected).insert row = some after :=
    ⟨_, dif_pos fits⟩
  obtain ⟨after, inserted⟩ := inserted
  refine ⟨after, inserted, ?_⟩
  have removed : (table.remove selected).find? selected = none := by
    rw [find?, List.find?_eq_none]
    intro other member
    simp [(mem_remove.mp member).2]
  rw [find?_insert inserted, removed, isSelected]
  rfl

/-! ### Rows that an operation leaves alone -/

theorem filter_insert (wanted : Row → Bool) (inserted : table.insert row = some after) (unwanted : wanted row = false) :
    after.rows.filter wanted = table.rows.filter wanted := by
  rw [rows_insert inserted, List.filter_append]
  simp [unwanted]

theorem filter_remove (table : Table Row conflicts) (wanted selected : Row → Bool)
    (unwanted : ∀ row ∈ table.rows, selected row = true → wanted row = false) :
    (table.remove selected).rows.filter wanted = table.rows.filter wanted := by
  rw [remove, List.filter_filter]
  apply List.filter_congr
  intro row member
  cases isSelected : selected row with
  | false => simp
  | true => simp [unwanted row member isSelected]

theorem filter_modify (wanted : Row → Bool) (modified : table.modify selected change = some after)
    (unwanted : ∀ row ∈ table.rows, selected row = true →
      wanted row = false ∧ wanted (change row) = false) :
    after.rows.filter wanted = table.rows.filter wanted := by
  rw [rows_modify modified, List.filter_map]
  have sameWanted : table.rows.filter (wanted ∘ fun row => if selected row then change row else row) =
      table.rows.filter wanted := by
    apply List.filter_congr
    intro row member
    cases isSelected : selected row with
    | false => simp [isSelected]
    | true => simp [isSelected, unwanted row member isSelected]
  rw [sameWanted]
  refine (List.map_congr_left fun row member => ?_).trans (List.map_id _)
  have ⟨memberTable, isWanted⟩ := List.mem_filter.mp member
  cases isSelected : selected row with
  | false => simp
  | true => simp [(unwanted row memberTable isSelected).1] at isWanted

/-- Rows of one table that conflict are one row. -/
theorem eq_of_conflicts
    (symmetric : ∀ first second, conflicts first second = conflicts second first)
    {first second : Row} (member : first ∈ table.rows) (otherMember : second ∈ table.rows)
    (conflict : conflicts first second = true) : first = second := by
  have symm : Std.Symm fun first second => conflicts first second = false :=
    ⟨fun first second apart => by rwa [symmetric]⟩
  by_contra different
  have apart := table.distinct.forall member otherMember different
  rw [conflict] at apart
  cases apart

/-- A wanted row is the one found, when all wanted rows conflict with it. -/
theorem find?_eq_some (symmetric : ∀ first second, conflicts first second = conflicts second first)
    (member : row ∈ table.rows) (isWanted : wanted row = true)
    (only : ∀ other, wanted other = true → conflicts other row = true) :
    table.find? wanted = some row := by
  cases found : table.find? wanted with
  | none =>
      have unwanted := List.find?_eq_none.mp found row member
      exact absurd isWanted unwanted
  | some other =>
      have otherMember := List.mem_of_find?_eq_some found
      have otherWanted := List.find?_some found
      rw [eq_of_conflicts symmetric otherMember member (only other otherWanted)]

end Table

end Litefunctions
