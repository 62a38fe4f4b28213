import Litefunctions.FunctionObjects
import Litefunctions.LabelSelectors

/-!
# Selected runtimes

The Service of a function selects pods by labels.  It selects those of the
Deployment of another function exactly where the two functions share a runtime:
the label for the name is left out for the dynamic languages on both sides.
-/

namespace Litefunctions

namespace Operator

open LabelSelectors

/-- The functions have the same language and project and, where the language has
no shared runtime, the same name. -/
def SharesPods (first second : Function) : Prop :=
  first.content.language = second.content.language ∧
    first.content.project = second.content.project ∧
    (isDynamicLanguage first.content.language = false →
      first.content.name = second.content.name)

theorem runtimeLabels_keysDistinct (function : Function) :
    ((runtimeLabels function).map Prod.fst).Nodup := by
  have keys : ["app", "lang", "project", "function"].Nodup := by decide
  unfold runtimeLabels
  extract_lets labels
  split
  · exact keys.sublist (by simp [labels])
  · exact keys

theorem mem_runtimeLabels (function : Function) (label : String × String) :
    label ∈ runtimeLabels function ↔
      label = ("app", "runtime") ∨ label = ("lang", function.content.language) ∨
        label = ("project", function.content.project) ∨
        (isDynamicLanguage function.content.language = false ∧
          label = ("function", function.content.name)) := by
  unfold runtimeLabels
  extract_lets labels
  cases isDynamicLanguage function.content.language <;> simp [labels]

/-- The labels of one runtime are among those of another one exactly where the
functions share their pods. -/
theorem runtimeLabels_subset_iff (first second : Function) :
    runtimeLabels first ⊆ runtimeLabels second ↔ SharesPods first second := by
  constructor
  · intro subset
    have language : first.content.language = second.content.language := by
      have member := subset ((mem_runtimeLabels first ("lang", _)).mpr (.inr (.inl rfl)))
      simpa [mem_runtimeLabels] using member
    have project : first.content.project = second.content.project := by
      have member := subset ((mem_runtimeLabels first ("project", _)).mpr (.inr (.inr (.inl rfl))))
      simpa [mem_runtimeLabels] using member
    apply And.intro language
    apply And.intro project
    intro static
    have member := subset ((mem_runtimeLabels first ("function", _)).mpr
      (.inr (.inr (.inr ⟨static, rfl⟩))))
    simpa [mem_runtimeLabels, ← language, static] using member
  · rintro ⟨language, project, name⟩ label member
    rw [mem_runtimeLabels] at member ⊢
    rw [← language, ← project]
    rcases member with isApp | isLanguage | isProject | ⟨static, isName⟩
    · exact .inl isApp
    · exact .inr (.inl isLanguage)
    · exact .inr (.inr (.inl isProject))
    · rw [name static] at isName
      exact .inr (.inr (.inr ⟨static, isName⟩))

/-- A Service selects the pods of a Deployment exactly where their functions
share a runtime, and every Deployment selects its own pods. -/
theorem selects_podLabels_iff (cfg : Settings) (first second : Function) :
    (selects (newService first).selector (newDeployment cfg second).podLabels = true ↔
        SharesPods first second) ∧
      selects (newDeployment cfg second).matchLabels (newDeployment cfg second).podLabels = true := by
  constructor
  · exact (selects_iff_subset (runtimeLabels_keysDistinct second)).trans
      (runtimeLabels_subset_iff first second)
  · exact selects_self (runtimeLabels_keysDistinct second)

end Operator

end Litefunctions
