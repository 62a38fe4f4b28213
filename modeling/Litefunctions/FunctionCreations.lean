import Litefunctions.FunctionService
import Litefunctions.ProgramSpecs

/-!
# Creation of Function objects

The portal's remote call creates a Function object unless its name is in use.
This is what the call does to the stored functions.
-/

namespace Litefunctions

namespace Operator

open Program

/-- The content of a new Function object. -/
def newSpec (req : CreateFunctionRequest) : FunctionSpec where
  isActive := false
  isAsync := req.isAsync
  deProvisionTime := .unset
  language := req.language
  name := req.name
  method := ""
  project := req.project
  gitCreds := ""

def CreateFunctionRequest.key (req : CreateFunctionRequest) : NamespacedName :=
  ⟨req.namespace_, req.name⟩

/-- The request has all that the operator requires. -/
def CreateFunctionRequest.IsComplete (req : CreateFunctionRequest) : Prop :=
  req.namespace_ ≠ "" ∧ req.name ≠ "" ∧ req.project ≠ "" ∧ req.language ≠ ""

/-- Nothing changes, or a name that is not in use gets a new object. -/
inductive Creates (req : CreateFunctionRequest) (before after : Store NamespacedName FunctionSpec) :
    Prop
  | kept (same : after = before)
  | created {written : Function} (absent : before.find? req.key = none)
      (contentEq : written.content = newSpec req)
      (stores : ∀ other, after.find? other =
        if other = req.key then some written else before.find? other)

variable {req : CreateFunctionRequest} {cluster : Cluster}

/-- The operator's answer to a call, whether the API server is available or not. -/
abbrev answerRemote (call : ApiCall) (circumstance : ApiCall.Circumstance) (cluster : Cluster) :
    call.Response × Cluster :=
  call.answer circumstance.unavailable circumstance.elapsed cluster

theorem create_creates (req : CreateFunctionRequest) (store : Store NamespacedName FunctionSpec) :
    Creates req store (store.create req.key (newSpec req)).2 := by
  cases accepted : store.create req.key (newSpec req) with
  | mk result after =>
      cases result with
      | error err =>
          have rejected : (StoreCall.create req.key (newSpec req) : FunctionCall).execute
              FunctionPatch.apply store = (.error err, after) := accepted
          exact .kept (StoreCall.execute_eq_error rejected)
      | ok written =>
          obtain ⟨absent, contentEq, stores⟩ := Store.create_eq_ok accepted
          exact .created absent contentEq stores

theorem createFunction_ensures (req : CreateFunctionRequest) (cluster : Cluster) :
    (createFunction req).Ensures answerRemote (fun _ _ => True)
      (fun _ after => Creates req cluster.functions after.functions) cluster := by
  unfold createFunction createFunctionIfNotExists
  split
  · exact .kept rfl
  · apply ensures_bind.mpr
    apply And.intro trivial
    intro circumstance
    simp only [answerRemote, ApiCall.answer, StoreCall.execute]
    cases circumstance.unavailable with
    | true => exact .kept rfl
    | false =>
        simp only [Bool.false_eq_true, if_false]
        cases cluster.functions.find? ⟨req.namespace_, req.name⟩ with
        | some function => exact .kept rfl
        | none =>
            apply And.intro trivial
            intro later
            have creates := create_creates req cluster.functions
            simp only [ApiCall.answer, StoreCall.execute]
            cases later.unavailable with
            | true => exact .kept rfl
            | false =>
                simp only [Bool.false_eq_true, if_false]
                revert creates
                simp only [CreateFunctionRequest.key, newSpec]
                cases (cluster.functions.create _ _).1 <;> exact id

/-- A complete request for a name that is not in use creates the object, if the
API server is available. -/
theorem createFunction_created (complete : req.IsComplete)
    (absent : cluster.functions.find? req.key = none) :
    (createFunction req).EnsuresUnder answerRemote (fun _ circumstance _ => circumstance.unavailable = false)
      (fun result after => result = .ok true ∧ ∃ written : Function, written.content = newSpec req ∧
        ∀ other, after.functions.find? other =
          if other = req.key then some written else cluster.functions.find? other) cluster := by
  unfold createFunction createFunctionIfNotExists
  rw [if_neg (by simpa [CreateFunctionRequest.IsComplete] using complete)]
  have absentName : cluster.functions.find? ⟨req.namespace_, req.name⟩ = none := absent
  apply ensuresUnder_bind.mpr
  intro circumstance available
  simp only [answerRemote, ApiCall.answer, StoreCall.execute, available, Bool.false_eq_true,
    if_false, absentName]
  intro later laterAvailable
  simp only [ApiCall.answer, StoreCall.execute, laterAvailable, Bool.false_eq_true, if_false,
    Store.create, dif_pos absentName]
  exact ⟨rfl, _, rfl, Store.find?_insert absentName⟩

end Operator

end Litefunctions
