import Mathlib.Data.List.Sort
import Mathlib.Logic.Equiv.Basic

/-!
# Arrangements of rows

A total order may leave rows in a tie.  Each arrangement of the rows agrees
with the order, and there is only one exactly when no two rows are tied.  Pages
of one arrangement that follow each other neither repeat nor skip a row.
-/

namespace Litefunctions

section Arrangements

variable {Row : Type} (before : Row → Row → Prop)

/-- The rows, in an order that agrees with `before`. -/
structure Arranges (rows ordered : List Row) : Prop where
  perm : ordered.Perm rows
  inOrder : ordered.Pairwise before

/-- Different rows that may come in either order. -/
def HasTie (rows : List Row) : Prop :=
  ∃ first ∈ rows, ∃ second ∈ rows, first ≠ second ∧ before first second ∧ before second first

variable {before} {rows ordered other : List Row}

theorem Arranges.mem_iff (arranges : Arranges before rows ordered) {row : Row} :
    row ∈ ordered ↔ row ∈ rows :=
  arranges.perm.mem_iff

theorem arranges_insertionSort [DecidableRel before] [Std.Total before] [IsTrans Row before] :
    Arranges before rows (rows.insertionSort before) :=
  ⟨List.perm_insertionSort before rows, List.pairwise_insertionSort before rows⟩

/-- Without ties there is one arrangement. -/
theorem Arranges.unique (arranges : Arranges before rows ordered)
    (arrangesOther : Arranges before rows other) (noTie : ¬ HasTie before rows) :
    ordered = other := by
  apply List.Perm.eq_of_pairwise _ arranges.inOrder arrangesOther.inOrder
    (arranges.perm.trans arrangesOther.perm.symm)
  intro first second member otherMember early late
  by_contra different
  exact noTie ⟨first, arranges.mem_iff.mp member, second,
    arrangesOther.mem_iff.mp otherMember, different, early, late⟩

section Swap

variable [DecidableEq Row] {first second : Row}

theorem swap_mem (member : first ∈ ordered) (otherMember : second ∈ ordered) {row : Row}
    (isMember : row ∈ ordered) : Equiv.swap first second row ∈ ordered := by
  rw [Equiv.swap_apply_def]
  split
  · exact otherMember
  · split
    · exact member
    · exact isMember

theorem perm_map_swap (distinct : ordered.Nodup) (member : first ∈ ordered)
    (otherMember : second ∈ ordered) :
    (ordered.map (Equiv.swap first second)).Perm ordered := by
  apply (List.perm_ext_iff_of_nodup
    (distinct.map (Equiv.swap first second).injective) distinct).mpr
  intro row
  rw [List.mem_map]
  constructor
  · rintro ⟨swapped, isMember, rfl⟩
    exact swap_mem member otherMember isMember
  · intro isMember
    exact ⟨_, swap_mem member otherMember isMember, Equiv.swap_apply_self first second row⟩

variable [Std.Total before]

/-- A row that is exchanged with one in a tie with it stays between the same
rows. -/
theorem before_swap (early : before first second) (late : before second first) (row : Row) :
    before row (Equiv.swap first second row) ∧ before (Equiv.swap first second row) row := by
  rw [Equiv.swap_apply_def]
  split
  · rename_i isFirst
    rw [isFirst]
    exact ⟨early, late⟩
  · split
    · rename_i isSecond
      rw [isSecond]
      exact ⟨late, early⟩
    · have itself : before row row := (Std.Total.total row row).elim id id
      exact ⟨itself, itself⟩

variable [IsTrans Row before]

/-- Exchanging two rows in a tie gives another arrangement. -/
theorem Arranges.swap (arranges : Arranges before rows ordered) (distinct : rows.Nodup)
    (member : first ∈ rows) (otherMember : second ∈ rows) (early : before first second)
    (late : before second first) :
    Arranges before rows (ordered.map (Equiv.swap first second)) := by
  have distinctOrdered := arranges.perm.nodup_iff.mpr distinct
  constructor
  · exact (perm_map_swap distinctOrdered (arranges.mem_iff.mpr member)
      (arranges.mem_iff.mpr otherMember)).trans arranges.perm
  · apply List.pairwise_map.mpr
    apply arranges.inOrder.imp
    intro row next follows
    have swapped := (before_swap early late row).2
    have swappedNext := (before_swap early late next).1
    exact IsTrans.trans _ _ _ swapped (IsTrans.trans _ _ _ follows swappedNext)

end Swap

/-- There is one arrangement exactly when no two rows are in a tie. -/
theorem unique_iff_not_hasTie [DecidableRel before] [Std.Total before] [IsTrans Row before]
    (distinct : rows.Nodup) :
    (∃ ordered, ∀ other, Arranges before rows other → other = ordered) ↔
      ¬ HasTie before rows := by
  classical
  constructor
  · rintro ⟨ordered, unique⟩ ⟨first, member, second, otherMember, different, early, late⟩
    have arranges : Arranges before rows (rows.insertionSort before) := arranges_insertionSort
    have swapped := arranges.swap distinct member otherMember early late
    have same := (unique _ swapped).trans (unique _ arranges).symm
    have fixed : Equiv.swap first second first = first := by
      have everywhere := List.map_inj_left.mp (same.trans (List.map_id _).symm)
      exact everywhere first (arranges.mem_iff.mpr member)
    rw [Equiv.swap_apply_left] at fixed
    exact different fixed.symm
  · intro noTie
    exact ⟨_, fun other arranges => arranges.unique arranges_insertionSort noTie⟩

end Arrangements

/-! ### Pages -/

section Pages

variable {Row : Type}

/-- The rows from position `start` on, at most `size` of them. -/
def pageOf (start size : Nat) (rows : List Row) : List Row :=
  (rows.drop start).take size

theorem pageOf_all {size : Nat} {rows : List Row} (whole : rows.length ≤ size) :
    pageOf 0 size rows = rows := by
  rw [pageOf, List.drop_zero, List.take_of_length_le whole]

theorem pageOf_append (start size next : Nat) (rows : List Row) :
    pageOf start size rows ++ pageOf (start + size) next rows = pageOf start (size + next) rows := by
  rw [pageOf, pageOf, pageOf, List.take_add, List.drop_drop]

theorem pageOf_nodup {rows : List Row} (distinct : rows.Nodup) (start size : Nat) :
    (pageOf start size rows).Nodup :=
  distinct.sublist ((List.take_sublist _ _).trans (List.drop_sublist _ _))

end Pages

end Litefunctions
