import Litefunctions.SeparatedText
import Litefunctions.SharedRuntimes

/-!
# Names of runtimes

The name of a runtime joins the language, the project and, for a compiled
function, the name of the function with hyphens, which projects and functions
may contain themselves.  Functions that are meant to have runtimes of their own
share one where a part between two hyphens can be read as the end of the
project or as the start of the name.
-/

namespace Litefunctions

namespace Operator

/-- The functions are meant to share a runtime: dynamic languages have one for
each project, compiled functions have one each. -/
def SharesRuntime (first second : Function) : Prop :=
  first.content.language = second.content.language ∧
    first.content.project = second.content.project ∧
    (isDynamicLanguage first.content.language = true ∨ first.key.name = second.key.name)

/-- The project of the first function goes on with what starts the name of the
second one. -/
def MovesHyphen (first second : Function) : Prop :=
  ∃ middle, first.content.project = second.content.project ++ "-" ++ middle ∧
    second.key.name = middle ++ "-" ++ first.key.name

/-- Two compiled functions whose projects and names are cut differently. -/
def Collides (first second : Function) : Prop :=
  first.content.language = second.content.language ∧
    isDynamicLanguage first.content.language = false ∧
    (MovesHyphen first second ∨ MovesHyphen second first)

theorem name_keyOf_eq_iff {first second : Function} {firstLanguage secondLanguage : Language}
    (hasFirst : first.content.language = firstLanguage.tag)
    (hasSecond : second.content.language = secondLanguage.tag) (part : RuntimePart) :
    (part.keyOf first).name = (part.keyOf second).name ↔
      first.content.language = second.content.language ∧
        runtimeSuffix first = runtimeSuffix second := by
  rw [keyOf_name, keyOf_name, hasFirst, hasSecond]
  constructor
  · intro joined
    obtain ⟨rfl, sameSuffix⟩ := tags_of_joined_eq joined
    exact ⟨rfl, sameSuffix⟩
  · rintro ⟨sameTag, sameSuffix⟩
    rw [sameTag, sameSuffix]

private theorem hyphen_toList (first second : String) :
    (first ++ "-" ++ second).toList = first.toList ++ '-' :: second.toList := by
  simp

private theorem exists_middle_iff {first second otherFirst otherSecond : String} :
    (∃ middle, first.toList = otherFirst.toList ++ '-' :: middle ∧
        otherSecond.toList = middle ++ '-' :: second.toList) ↔
      ∃ middle, first = otherFirst ++ "-" ++ middle ∧ otherSecond = middle ++ "-" ++ second := by
  constructor
  · rintro ⟨middle, extends_, rest⟩
    refine ⟨String.ofList middle, ?_, ?_⟩
    · apply String.toList_injective
      rw [hyphen_toList, extends_, String.toList_ofList]
    · apply String.toList_injective
      rw [hyphen_toList, rest, String.toList_ofList]
  · rintro ⟨middle, rfl, rfl⟩
    exact ⟨middle.toList, hyphen_toList _ _, hyphen_toList _ _⟩

/-- The ways in which two projects and names can be joined to one text. -/
theorem hyphenated_eq_iff {first second otherFirst otherSecond : String} :
    first ++ "-" ++ second = otherFirst ++ "-" ++ otherSecond ↔
      (first = otherFirst ∧ second = otherSecond) ∨
        (∃ middle, first = otherFirst ++ "-" ++ middle ∧ otherSecond = middle ++ "-" ++ second) ∨
        ∃ middle, otherFirst = first ++ "-" ++ middle ∧ second = middle ++ "-" ++ otherSecond := by
  rw [← String.toList_inj, hyphen_toList, hyphen_toList, SeparatedText.append_cons_eq_iff,
    exists_middle_iff, exists_middle_iff, String.toList_inj, String.toList_inj]

/-- A project that goes on is another one. -/
theorem MovesHyphen.ne_project {first second : Function} (moves : MovesHyphen first second) :
    first.content.project ≠ second.content.project := by
  obtain ⟨middle, extends_, -⟩ := moves
  intro same
  have lengths := congrArg String.length (extends_.symm.trans same)
  simp only [String.length_append] at lengths
  have hyphen : ("-" : String).length = 1 := rfl
  omega

theorem not_sharesRuntime_of_collides {first second : Function} (collides : Collides first second) :
    ¬ SharesRuntime first second := by
  rintro ⟨-, sameProject, -⟩
  rcases collides.2.2 with moves | moves
  · exact moves.ne_project sameProject
  · exact moves.ne_project sameProject.symm

/-- Runtimes have one name where they are shared or where names collide. -/
theorem name_keyOf_eq_iff_shares_or_collides {first second : Function}
    {firstLanguage secondLanguage : Language}
    (hasFirst : first.content.language = firstLanguage.tag)
    (hasSecond : second.content.language = secondLanguage.tag) (part : RuntimePart) :
    (part.keyOf first).name = (part.keyOf second).name ↔
      SharesRuntime first second ∨ Collides first second := by
  rw [name_keyOf_eq_iff hasFirst hasSecond]
  unfold SharesRuntime Collides runtimeSuffix
  by_cases sameLanguage : first.content.language = second.content.language
  · by_cases dynamic : isDynamicLanguage first.content.language = true
    · simp [← sameLanguage, dynamic]
    · simp [← sameLanguage, dynamic, hyphenated_eq_iff, MovesHyphen]
  · simp [sameLanguage]

/-- The names of runtimes keep apart exactly what they are meant to unless the
names of two compiled functions collide. -/
theorem names_separate_runtimes_iff {first second : Function}
    {firstLanguage secondLanguage : Language}
    (hasFirst : first.content.language = firstLanguage.tag)
    (hasSecond : second.content.language = secondLanguage.tag) :
    ((getDeploymentName first = getDeploymentName second ↔ SharesRuntime first second) ∧
        (getServiceName first = getServiceName second ↔ SharesRuntime first second)) ↔
      ¬ Collides first second := by
  have deployments :=
    name_keyOf_eq_iff_shares_or_collides hasFirst hasSecond .deployment
  have services := name_keyOf_eq_iff_shares_or_collides hasFirst hasSecond .service
  simp only [RuntimePart.keyOf] at deployments services
  rw [deployments, services]
  constructor
  · intro separate collides
    exact not_sharesRuntime_of_collides collides (separate.1.mp (.inr collides))
  · intro apart
    have only : SharesRuntime first second ∨ Collides first second ↔ SharesRuntime first second :=
      or_iff_left apart
    exact ⟨only, only⟩

/-- A new function in Go. -/
def newGoFunction (project name : String) : Function where
  key := ⟨"default", name⟩
  version := 1
  content :=
    { isActive := false
      isAsync := false
      deProvisionTime := .unset
      language := "go"
      name := name
      method := ""
      project := project
      gitCreds := "" }

theorem names_separate_runtimes_shop :
    ((getDeploymentName (newGoFunction "shop" "total") = getDeploymentName (newGoFunction "blog" "total") ↔
          SharesRuntime (newGoFunction "shop" "total") (newGoFunction "blog" "total")) ∧
        (getServiceName (newGoFunction "shop" "total") = getServiceName (newGoFunction "blog" "total") ↔
          SharesRuntime (newGoFunction "shop" "total") (newGoFunction "blog" "total"))) ↔
      ¬ Collides (newGoFunction "shop" "total") (newGoFunction "blog" "total") :=
  @names_separate_runtimes_iff _ _ .go .go rfl rfl

theorem shopEu_shares_name :
    (newGoFunction "shop-eu" "total").key.namespace_ = (newGoFunction "shop" "eu-total").key.namespace_ ∧
      getDeploymentName (newGoFunction "shop-eu" "total") =
        getDeploymentName (newGoFunction "shop" "eu-total") ∧
      getServiceName (newGoFunction "shop-eu" "total") = getServiceName (newGoFunction "shop" "eu-total") ∧
      ¬ SharesRuntime (newGoFunction "shop-eu" "total") (newGoFunction "shop" "eu-total") := by
  refine ⟨rfl, by decide +kernel, by decide +kernel, ?_⟩
  rintro ⟨-, sameProject, -⟩
  exact absurd sameProject (by decide +kernel)

end Operator

end Litefunctions
