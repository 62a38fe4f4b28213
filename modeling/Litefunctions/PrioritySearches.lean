import Mathlib.Data.List.Basic

/-!
# Searches in an order of preference

A list is searched once for each of several tests, and the first search that
finds an element decides.  In a program each search is a loop that returns the
first element that passes.
-/

namespace Litefunctions.PrioritySearches

variable {α β : Type*}

/-- The first element that passes the first of the tests that any element passes. -/
def search (tests : List (α → Bool)) (list : List α) : Option α :=
  tests.findSome? fun test => list.find? test

@[simp]
theorem search_nil (list : List α) : search [] list = none :=
  rfl

theorem search_cons (test : α → Bool) (tests : List (α → Bool)) (list : List α) :
    search (test :: tests) list = (list.find? test).or (search tests list) := by
  rw [search, List.findSome?_cons]
  cases list.find? test with
  | none => rfl
  | some found => rfl

/-- A test that no element passes does not matter. -/
theorem search_cons_of_none {test : α → Bool} {list : List α}
    (fails : ∀ element ∈ list, test element = false) (tests : List (α → Bool)) :
    search (test :: tests) list = search tests list := by
  have notFound : list.find? test = none := by
    rw [List.find?_eq_none]
    intro element member
    rw [fails element member]
    exact Bool.false_ne_true
  rw [search_cons, notFound, Option.none_or]

theorem search_cons_of_some {test : α → Bool} {list : List α} {found : α}
    (isFound : list.find? test = some found) (tests : List (α → Bool)) :
    search (test :: tests) list = some found := by
  rw [search_cons, isFound, Option.some_or]

theorem mem_of_search {tests : List (α → Bool)} {list : List α} {found : α}
    (isFound : search tests list = some found) : found ∈ list := by
  obtain ⟨test, -, passes⟩ := List.exists_of_findSome?_eq_some isFound
  exact List.mem_of_find?_eq_some passes

theorem find?_true (list : List α) : (list.find? fun _ => true) = list.head? := by
  cases list with
  | nil => rfl
  | cons first rest => rfl

/-- A further test is tried where the tests before it find nothing. -/
theorem getD_search_cons (test : α → Bool) (tests : List (α → Bool)) (list : List α)
    (result : α → β) (default : β) :
    ((search (test :: tests) list).map result).getD default =
      ((list.find? test).map result).getD (((search tests list).map result).getD default) := by
  rw [search_cons]
  cases list.find? test with
  | none => rfl
  | some found => rfl

theorem elim_or_some (found : Option α) (last : α) (other : β) (result : α → β) :
    (found.or (some last)).elim other result = (found.map result).getD (result last) := by
  cases found with
  | none => rfl
  | some element => rfl

/-- A loop that returns at the first element that passes a test. -/
theorem forIn_return (test : α → Bool) (result : α → β) (list : List α) :
    (forIn (m := Id) list ((none : Option β), ()) fun element _ =>
      if test element = true then pure (.done (some (result element), ()))
      else pure (.yield (none, ()))) = ((list.find? test).map result, ()) := by
  induction list with
  | nil => rfl
  | cons first rest ih =>
      rw [List.forIn_cons, List.find?_cons]
      by_cases passes : test first = true
      · rw [if_pos passes, passes]
        rfl
      · rw [if_neg passes, Bool.eq_false_iff.mpr passes]
        exact ih

/-- Such a loop and what follows it. -/
theorem loop_eq (test : α → Bool) (result : α → β) (list : List α) (otherwise : Id β) :
    (do
      for element in list do
        if test element then
          return result element
      otherwise : Id β) = pure (((list.find? test).map result).getD otherwise.run) := by
  rw [forIn_return]
  cases list.find? test with
  | none => rfl
  | some found => rfl

end Litefunctions.PrioritySearches
