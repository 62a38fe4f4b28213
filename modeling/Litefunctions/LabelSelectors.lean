import Mathlib.Data.List.Nodup

/-!
# Label selectors

A selector gives values to some keys, and selects the objects that have labels
with these keys and values.  Where no key is labelled twice this is the
inclusion of the selector in the labels.
-/

namespace Litefunctions.LabelSelectors

variable {Key Value : Type*} [DecidableEq Key] [DecidableEq Value]

/-- Every label of the selector is present with the same value. -/
def selects (selector labels : List (Key × Value)) : Bool :=
  selector.all fun label => labels.lookup label.1 == some label.2

variable {selector labels : List (Key × Value)}

omit [DecidableEq Value] in
/-- Of distinct keys, a label is what is found under its key. -/
theorem lookup_eq_some_iff (distinct : (labels.map Prod.fst).Nodup) {label : Key × Value} :
    labels.lookup label.1 = some label.2 ↔ label ∈ labels := by
  induction labels with
  | nil => simp
  | cons first labels ih =>
      rw [List.map_cons, List.nodup_cons] at distinct
      obtain ⟨key, value⟩ := label
      obtain ⟨firstKey, firstValue⟩ := first
      by_cases sameKey : key = firstKey
      · subst sameKey
        have elsewhere : (key, value) ∉ labels := by
          intro member
          exact distinct.1 (List.mem_map.mpr ⟨(key, value), member, rfl⟩)
        rw [List.lookup_cons_self, List.mem_cons, Option.some.injEq, Prod.mk.injEq]
        constructor
        · rintro rfl
          exact .inl ⟨rfl, rfl⟩
        · rintro (⟨-, rfl⟩ | member)
          · rfl
          · exact absurd member elsewhere
      · have different : (key == firstKey) = false := beq_eq_false_iff_ne.mpr sameKey
        rw [List.lookup_cons, different, List.mem_cons, Prod.mk.injEq]
        simp only [sameKey, false_and, false_or]
        exact ih distinct.2

theorem selects_iff_subset (distinct : (labels.map Prod.fst).Nodup) :
    selects selector labels = true ↔ selector ⊆ labels := by
  rw [selects, List.all_eq_true]
  apply forall_congr'
  intro label
  apply imp_congr_right
  intro _
  rw [beq_iff_eq, lookup_eq_some_iff distinct]

theorem selects_self (distinct : (labels.map Prod.fst).Nodup) : selects labels labels = true :=
  (selects_iff_subset distinct).mpr (List.Subset.refl labels)

end Litefunctions.LabelSelectors
