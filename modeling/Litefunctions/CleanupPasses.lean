import Litefunctions.OperatorRuns

/-!
# What a cleanup pass knows when it writes

A cleanup pass deactivates a function because of the list it started with and
of its one reading of the clock.  It deletes a runtime because of its patch,
and for the dynamic languages because of a second list.  These assertions hold
of the pass's own history, whatever the other processes do meanwhile.
-/

namespace Litefunctions

namespace Operator

open Program

/-- The pass listed the function as active with a lease over at its reading of
the clock. -/
def ListedExpired (history : ApiHistory) (function : Function) : Prop :=
  ∃ items now rest,
    history = ⟨.functions .list, Except.ok items⟩ :: ⟨.now, now⟩ :: rest ∧
      function ∈ items ∧ function.content.isActive = true ∧
      function.content.deProvisionTime.ExpiredAt now

/-- No function of the list other than the patched one uses its runtime. -/
def NoOtherActive (patched : Function) (items : List Function) : Prop :=
  ((inNamespace patched.key.namespace_ items).any fun fn =>
    sharesRuntime patched fn && fn.content.isActive) = false

def isPatch : ApiCall → Bool
  | .functions (.patch _ _) => true
  | _ => false

def isList : ApiCall → Bool
  | .functions .list => true
  | _ => false

/-- `late` is what the pass did since it patched the function; `patched` is the
function it went on with, and for a dynamic language it listed the functions
again and found no other active one. -/
def Patched (history : ApiHistory) (function patched : Function) (late : ApiHistory) : Prop :=
  ∃ early response,
    history = early ++
      ⟨.functions (.patch function.key (deactivation function)), response⟩ :: late ∧
    ListedExpired early function ∧ patched = afterPatch function response ∧
    (∀ answered ∈ late, isPatch answered.1 = false) ∧
    (isDynamicLanguage patched.content.language = true →
      ∃ items after, late = ⟨.functions .list, Except.ok items⟩ :: after ∧
        NoOtherActive patched items)

/-- What a pass has done before each of its writes. -/
def CleanupCalls (history : ApiHistory) : ApiCall → Prop
  | .functions (.patch key patch) =>
      ∃ function, ListedExpired history function ∧ key = function.key ∧
        patch = deactivation function
  | .deployments (.delete _) => ∃ function patched late, Patched history function patched late
  | .services (.delete _) => ∃ function patched late, Patched history function patched late
  | _ => True

theorem ListedExpired.append {history : ApiHistory} {function : Function}
    (listed : ListedExpired history function) (more : ApiHistory) :
    ListedExpired (history ++ more) function := by
  obtain ⟨items, now, rest, rfl, member, expired⟩ := listed
  exact ⟨items, now, rest ++ more, rfl, member, expired⟩

theorem Patched.snoc {history late : ApiHistory} {function patched : Function}
    (wasPatched : Patched history function patched late)
    {answered : Answered ApiCall ApiCall.Response} (noPatch : isPatch answered.1 = false) :
    Patched (history ++ [answered]) function patched (late ++ [answered]) := by
  obtain ⟨early, response, rfl, listed, patchedEq, noPatches, unshared⟩ := wasPatched
  refine ⟨early, response, by simp, listed, patchedEq, ?_, fun dynamic => ?_⟩
  · intro other member
    rcases List.mem_append.mp member with old | new
    · exact noPatches other old
    · exact List.mem_singleton.mp new ▸ noPatch
  · obtain ⟨items, after, rfl, noOther⟩ := unshared dynamic
    exact ⟨items, after ++ [answered], by simp, noOther⟩

section Calls

variable {history late : ApiHistory} {function patched : Function}

theorem deleteDeployment_calls (wasPatched : Patched history function patched late)
    (key : NamespacedName) :
    (deleteDeployment key).Along CleanupCalls
      (fun after _ => ∃ late, Patched after function patched late) history := by
  unfold deleteDeployment
  simp only [along_bind]
  apply And.intro trivial
  intro response
  cases response with
  | error err => exact ⟨_, wasPatched.snoc rfl⟩
  | ok existing =>
      exact ⟨⟨function, patched, _, wasPatched.snoc rfl⟩,
        fun _ => ⟨_, (wasPatched.snoc rfl).snoc rfl⟩⟩

theorem deleteService_calls (wasPatched : Patched history function patched late)
    (key : NamespacedName) :
    (deleteService key).Along CleanupCalls (fun _ _ => True) history := by
  unfold deleteService
  simp only [along_bind]
  apply And.intro trivial
  intro response
  cases response with
  | error err => trivial
  | ok existing =>
      exact ⟨⟨function, patched, _, wasPatched.snoc rfl⟩, fun _ => trivial⟩

/-- The sharing check lists the functions for a dynamic language only. -/
theorem hasOtherActive_calls (patched : Function) (history : ApiHistory) :
    (hasOtherActiveFunctionUsingSharedRuntime patched).Along CleanupCalls
      (fun after result => result = .ok false →
        ∃ more, after = history ++ more ∧ (∀ answered ∈ more, isPatch answered.1 = false) ∧
          (isDynamicLanguage patched.content.language = true →
            ∃ items, more = [⟨.functions .list, Except.ok items⟩] ∧
              NoOtherActive patched items)) history := by
  unfold hasOtherActiveFunctionUsingSharedRuntime
  split
  · next static => exact fun _ => ⟨[], by simp, by simp, fun dynamic => by simp [dynamic] at static⟩
  · apply And.intro trivial
    intro response
    cases response with
    | error err => exact fun isFalse => by cases isFalse
    | ok items =>
        intro isFalse
        exact ⟨_, rfl, by simp [isPatch], fun _ => ⟨items, rfl, Except.ok.inj isFalse⟩⟩

theorem deactivate_calls (listed : ListedExpired history function) :
    (deactivate function).Along CleanupCalls (fun _ _ => True) history := by
  unfold deactivate
  simp only [along_bind]
  refine ⟨⟨function, listed, rfl, rfl⟩, fun response => ?_⟩
  apply (hasOtherActive_calls _ _).imp (fun _ _ => id)
  rintro after (err | _ | _) unshared
  · trivial
  · obtain ⟨more, rfl, noPatches, relisted⟩ := unshared rfl
    have wasPatched : Patched (history ++
        [⟨.functions (.patch function.key (deactivation function)), response⟩] ++ more)
        function (afterPatch function response) more := by
      refine ⟨history, response, by simp, listed, rfl, noPatches, fun dynamic => ?_⟩
      obtain ⟨items, rfl, noOther⟩ := relisted dynamic
      exact ⟨items, [], rfl, noOther⟩
    simp only [along_bind]
    apply (deleteDeployment_calls wasPatched _).imp (fun _ _ => id)
    rintro deleted - ⟨late, wasPatched⟩
    exact (deleteService_calls wasPatched _).imp (fun _ _ => id) fun _ _ _ => trivial
  · trivial

theorem cleanupFunctions_calls {items pending : List Function} {now : Int} {rest : ApiHistory}
    (sublist : pending ⊆ items)
    (historyEq : history = ⟨.functions .list, Except.ok items⟩ :: ⟨.now, now⟩ :: rest) :
    (cleanupFunctions now pending).Along CleanupCalls (fun _ _ => True) history := by
  induction pending generalizing history rest with
  | nil => trivial
  | cons function pending ih =>
      have one : (cleanupFunction now function).Along CleanupCalls (fun _ _ => True) history := by
        unfold cleanupFunction
        split
        · next active =>
            split
            · trivial
            · next deprovisionTime parsed =>
                split
                · next ended =>
                    exact deactivate_calls ⟨items, now, rest, historyEq, sublist (by simp),
                      active.1, deprovisionTime, parsed, ended⟩
                · trivial
        · trivial
      simp only [cleanupFunctions, along_bind]
      apply one.extends.imp (fun _ _ => id)
      rintro after - ⟨⟨more, rfl⟩, -⟩
      have later : history ++ more =
          ⟨.functions .list, Except.ok items⟩ :: ⟨.now, now⟩ :: (rest ++ more) := by
        rw [historyEq]
        rfl
      exact ih (fun other member => sublist (List.mem_cons_of_mem _ member)) later

end Calls

theorem inNamespace_subset (namespace_ : String) (items : List Function) :
    inNamespace namespace_ items ⊆ items := by
  unfold inNamespace
  split
  · exact List.Subset.refl items
  · exact List.filter_subset_self _

theorem runCleanup_calls (namespace_ : String) :
    (runCleanup namespace_).Along CleanupCalls (fun _ _ => True) [] := by
  unfold runCleanup
  simp only [along_bind]
  apply And.intro trivial
  intro response
  cases response with
  | error err => trivial
  | ok items =>
      simp only [along_done, along_bind]
      apply And.intro trivial
      intro now
      exact (cleanupFunctions_calls (inNamespace_subset namespace_ items) rfl).imp
        (fun _ _ => id) fun _ _ _ => trivial

/-- What a pass has done before each of its writes holds of every cleanup task. -/
theorem cleanup_calls (namespace_ : String) :
    (Task.cleanup namespace_).program.Along CleanupCalls (fun _ _ => True) [] :=
  along_bind.mpr ((runCleanup_calls namespace_).imp (fun _ _ => id) fun _ _ => id)

end Operator

end Litefunctions
