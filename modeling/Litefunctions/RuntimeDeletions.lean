import Litefunctions.LeaseRenewals

/-!
# Runtimes that cleanup deletes

A cleanup pass deletes the Deployment and the Service of a function after it
has patched the function and, for the dynamic languages, after a list without
another active user.  No active function loses its runtime when that patch was
accepted, no activation of the function or of a user of its runtime fell
between these calls and the deletion, and no other active function has a
runtime of the same name.
-/

namespace Litefunctions

namespace Operator

open Program

variable {Pid : Type}

/-- The runtime object that a call deletes: how functions name it, and its
key. -/
def deletedRuntime : ApiCall → Option ((Function → String) × NamespacedName)
  | .deployments (.delete key) => some (getDeploymentName, key)
  | .services (.delete key) => some (getServiceName, key)
  | _ => none

/-- No active function of the cluster has the runtime object. -/
abbrev Idle (cluster : Cluster) (nameOf : Function → String) (key : NamespacedName) : Prop :=
  ∀ function ∈ cluster.functions.objects, function.key.namespace_ = key.namespace_ →
    nameOf function = key.name → function.content.isActive = false

/-- Whenever a pass deletes a runtime object, no active function has it. -/
abbrev DeletesIdleRuntimes (tasks : Pid → Task) : List (ClusterEvent Pid) → Prop :=
  Event.AtEvery fun _ event =>
    (tasks event.pid).deactivates = true →
      ∀ deleted ∈ deletedRuntime event.request, Idle event.before deleted.1 deleted.2

/-- The object that an accepted update of an activation wrote. -/
def activatedObject (task : Task) : Answered ApiCall ApiCall.Response → Option Function
  | ⟨.functions (.update object), .ok _⟩ => if task.activates then some object else none
  | _ => none

/-- The objects that activations wrote. -/
def activatedIn (tasks : Pid → Task) (events : List (ClusterEvent Pid)) : List Function :=
  events.filterMap fun event => activatedObject (tasks event.pid) event.answered

/-- The function that an accepted patch returned. -/
def acceptedPatch : Answered ApiCall ApiCall.Response → Option Function
  | ⟨.functions (.patch _ _), .ok patched⟩ => some patched
  | _ => none

/-- The function uses the shared runtime of a patched function. -/
def UsesRuntimeOf (patched function : Function) : Prop :=
  isDynamicLanguage patched.content.language = true ∧
    function.key.namespace_ = patched.key.namespace_ ∧ sharesRuntime patched function = true

instance (patched function : Function) : Decidable (UsesRuntimeOf patched function) :=
  inferInstanceAs (Decidable (_ ∧ _))

variable [DecidableEq Pid]

/-- The last patch of a process, with the events after it. -/
def lastPatch (pid : Pid) :
    List (ClusterEvent Pid) → Option (ClusterEvent Pid × List (ClusterEvent Pid))
  | [] => none
  | event :: events =>
      match lastPatch pid events with
      | some found => some found
      | none =>
          if event.pid = pid ∧ isPatch event.request = true then some (event, events) else none

/-- The pass made its last patch with success; since then no activation of the
patched function was accepted, nor since its list one of a user of the same
runtime, and no other active function has a runtime of this name. -/
def SafeDeletion (tasks : Pid → Task) (early : List (ClusterEvent Pid))
    (event : ClusterEvent Pid) (nameOf : Function → String) (key : NamespacedName) : Prop :=
  ∃ patching ∈ lastPatch event.pid early, ∃ patched ∈ acceptedPatch patching.1.answered,
    (∀ object ∈ activatedIn tasks patching.2, object.key ≠ patched.key) ∧
    (∀ object ∈ activatedIn tasks (sinceList event.pid patching.2),
      ¬ UsesRuntimeOf patched object) ∧
    ∀ function ∈ event.before.functions.objects,
      function.key.namespace_ = key.namespace_ → nameOf function = key.name →
        function.content.isActive = true →
          function.key = patched.key ∨ UsesRuntimeOf patched function

instance (tasks : Pid → Task) (early : List (ClusterEvent Pid)) (event : ClusterEvent Pid)
    (nameOf : Function → String) (key : NamespacedName) :
    Decidable (SafeDeletion tasks early event nameOf key) := by
  delta SafeDeletion
  infer_instance

/-- All deletions of the cleanup passes are safe. -/
abbrev SafeDeletions (tasks : Pid → Task) : List (ClusterEvent Pid) → Prop :=
  Event.AtEvery fun early event =>
    (tasks event.pid).deactivates = true →
      ∀ deleted ∈ deletedRuntime event.request,
        SafeDeletion tasks early event deleted.1 deleted.2

theorem lastPatch_eq_none {pid : Pid} {events : List (ClusterEvent Pid)}
    (noPatches : ∀ answered ∈ Event.own pid events, isPatch answered.1 = false) :
    lastPatch pid events = none := by
  induction events with
  | nil => rfl
  | cons event events ih =>
      by_cases isOwn : event.pid = pid
      · subst isOwn
        rw [Event.own_cons_self] at noPatches
        have notPatch : isPatch event.request = false := noPatches _ List.mem_cons_self
        simp [lastPatch, notPatch,
          ih fun answered member => noPatches answered (List.mem_cons_of_mem _ member)]
      · rw [Event.own_cons_other isOwn] at noPatches
        simp [lastPatch, isOwn, ih noPatches]

theorem lastPatch_eq {pid : Pid} {early late : List (ClusterEvent Pid)} {event : ClusterEvent Pid}
    (isOwn : event.pid = pid) (patches : isPatch event.request = true)
    (noPatches : ∀ answered ∈ Event.own pid late, isPatch answered.1 = false) :
    lastPatch pid (early ++ event :: late) = some (event, late) := by
  induction early with
  | nil => simp [lastPatch, lastPatch_eq_none noPatches, isOwn, patches]
  | cons other early ih => simp [lastPatch, ih]

/-! ### Functions that stay inactive -/

/-- A property that only depends on the key, project and language of a
function. -/
def IdentityOnly (uses : Function → Prop) : Prop :=
  ∀ first second : Function, first.key = second.key →
    first.content.project = second.content.project →
    first.content.language = second.content.language → uses first → uses second

/-- All functions with the property are inactive. -/
def NoneActive (uses : Function → Prop) (functions : Store NamespacedName FunctionSpec) : Prop :=
  ∀ key function, functions.find? key = some function → uses function →
    function.content.isActive = false

omit [DecidableEq Pid] in
/-- A function that is active after a step was active before, under the same
project and language, or an activation wrote it. -/
theorem FunctionStep.active_cases {task : Task} {answered : Answered ApiCall ApiCall.Response}
    {before after : Store NamespacedName FunctionSpec}
    (step : FunctionStep task.activates answered before after) {key : NamespacedName}
    {function : Function} (found : after.find? key = some function)
    (active : function.content.isActive = true) :
    (∃ stored, before.find? key = some stored ∧ stored.content.isActive = true ∧
        stored.content.project = function.content.project ∧
        stored.content.language = function.content.language) ∨
      ∃ object, activatedObject task answered = some object ∧ object.key = key ∧
        object.content = function.content := by
  cases step with
  | unchanged noUpdate => exact .inl ⟨function, found, active, rfl, rfl⟩
  | updated foundObject objectEq contentEq stores =>
      rename_i object written stored time
      rw [stores] at found
      split at found
      · next sameKey =>
          obtain rfl := Option.some.inj found
          cases activates : task.activates with
          | true =>
              exact .inr ⟨object, by simp [activatedObject, activates], sameKey.symm,
                contentEq.symm⟩
          | false =>
              have storedContent : written.content =
                  (Function.withLease stored time).content := by
                rw [contentEq, objectEq, activates]
                rfl
              rw [storedContent] at active ⊢
              exact .inl ⟨stored, sameKey ▸ foundObject, active, rfl, rfl⟩
      · exact .inl ⟨function, found, active, rfl, rfl⟩
  | patched foundPatched deactivates contentEq stores =>
      rename_i other patch stored written
      rw [stores] at found
      split at found
      · next sameKey =>
          obtain rfl := Option.some.inj found
          rw [contentEq] at active ⊢
          refine .inl ⟨stored, sameKey ▸ foundPatched, ?_, rfl, rfl⟩
          obtain ⟨_ | _ | _⟩ := patch <;> simp_all [FunctionPatch.apply]
      · exact .inl ⟨function, found, active, rfl, rfl⟩
  | created absent inactive contentEq stores =>
      rename_i other spec written
      rw [stores] at found
      split at found
      · obtain rfl := Option.some.inj found
        rw [contentEq, inactive] at active
        cases active
      · exact .inl ⟨function, found, active, rfl, rfl⟩

omit [DecidableEq Pid] in
theorem FunctionStep.noneActive {task : Task} {answered : Answered ApiCall ApiCall.Response}
    {before after : Store NamespacedName FunctionSpec}
    (step : FunctionStep task.activates answered before after) {uses : Function → Prop}
    (identity : IdentityOnly uses) (idle : NoneActive uses before)
    (notActivated : ∀ object, activatedObject task answered = some object → ¬ uses object) :
    NoneActive uses after := by
  intro key function found isUser
  by_contra active
  rw [Bool.not_eq_false] at active
  rcases step.active_cases found active with
    ⟨stored, storedFound, storedActive, projectEq, languageEq⟩ |
      ⟨object, activated, keyEq, contentEq⟩
  · have keyEq : function.key = stored.key := by
      rw [Store.key_of_find?_eq_some found, Store.key_of_find?_eq_some storedFound]
    have storedUses := identity _ _ keyEq projectEq.symm languageEq.symm isUser
    rw [idle key stored storedFound storedUses] at storedActive
    cases storedActive
  · refine notActivated object activated (identity _ _ ?_ ?_ ?_ isUser)
    · rw [Store.key_of_find?_eq_some found, keyEq]
    · rw [contentEq]
    · rw [contentEq]

variable {cluster : Cluster} {tasks : Pid → Task}
variable {last : Processes Pid ApiCall ApiCall.Response Outcome Cluster}

/-- Functions stay inactive over events in which no activation writes them. -/
theorem Runs.noneActive {early since late : List (ClusterEvent Pid)}
    {first event : ClusterEvent Pid}
    (ran : Runs cluster tasks (early ++ first :: since ++ event :: late) last)
    {uses : Function → Prop} (identity : IdentityOnly uses)
    (idle : NoneActive uses first.after.functions)
    (notActivated : ∀ object ∈ activatedIn tasks since, ¬ uses object) :
    NoneActive uses event.before.functions := by
  have linked := ran.linked
  rw [List.append_assoc, List.cons_append, Event.linked_append] at linked
  refine linked.2.2.run_induction_before rfl
    (motive := fun _ state => NoneActive uses state.functions) idle ?_
  rintro start step rest rfl idleBefore
  rw [show early ++ first :: (start ++ step :: rest) ++ event :: late =
    (early ++ first :: start) ++ step :: (rest ++ event :: late) by simp] at ran
  apply ran.functionStep.noneActive identity idleBefore
  intro object activated
  exact notActivated object (List.mem_filterMap.mpr ⟨step, by simp, activated⟩)

/-! ### Deletions -/

/-- A pass deletes runtime objects after it has patched a function. -/
theorem Runs.patched_of_deletes {early late : List (ClusterEvent Pid)} {event : ClusterEvent Pid}
    (ran : Runs cluster tasks (early ++ event :: late) last)
    (isCleanup : (tasks event.pid).deactivates = true)
    {nameOf : Function → String} {key : NamespacedName}
    (deletes : deletedRuntime event.request = some (nameOf, key)) :
    ∃ function patched history,
      Patched (Event.own event.pid early) function patched history := by
  obtain ⟨namespace_, taskEq⟩ : ∃ namespace_, tasks event.pid = .cleanup namespace_ := by
    cases taskEq : tasks event.pid with
    | cleanup namespace_ => exact ⟨namespace_, rfl⟩
    | _ => simp [taskEq, Task.deactivates] at isCleanup
  have along : ((start cluster tasks).program event.pid).Along CleanupCalls
      (fun _ _ => True) [] := by
    simp only [start, taskEq]
    exact cleanup_calls namespace_
  have calls := ran.assertion along
  unfold deletedRuntime at deletes
  split at deletes
  · next requestEq =>
      rw [requestEq] at calls
      exact calls
  · next requestEq =>
      rw [requestEq] at calls
      exact calls
  · cases deletes

omit [DecidableEq Pid] in
/-- An accepted deactivation leaves the function inactive. -/
theorem noneActive_of_patch {function patched : Function}
    {circumstance : ApiCall.Circumstance} {before after : Cluster}
    (active : function.content.isActive = true)
    (executed : (ApiCall.functions (.patch function.key (deactivation function))).execute
      circumstance before = some (.ok patched, after)) :
    NoneActive (fun other => other.key = patched.key) after.functions := by
  obtain ⟨stored, -, contentEq, keyEq, stores⟩ :=
    Store.patch_eq_ok (execute_functions executed)
  intro key other found sameKey
  have isPatched : key = function.key := by
    rw [← Store.key_of_find?_eq_some found, sameKey, keyEq]
  rw [stores, if_pos isPatched] at found
  obtain rfl := Option.some.inj found
  rw [contentEq]
  simp [deactivation, mergeFrom, FunctionPatch.apply, Function.setActive, active]

omit [DecidableEq Pid] in
/-- A list without another active user leaves none. -/
theorem noneActive_of_list {patched : Function} {items : List Function}
    {circumstance : ApiCall.Circumstance} {before after : Cluster}
    (noOther : NoOtherActive patched items)
    (executed : (ApiCall.functions .list).execute circumstance before = some (.ok items, after)) :
    NoneActive (UsesRuntimeOf patched) after.functions := by
  obtain ⟨rfl, afterEq⟩ := StoreCall.execute_list_eq_ok (execute_functions executed)
  rw [afterEq]
  rintro key function found ⟨-, sameNamespace, shares⟩
  have member : function ∈ inNamespace patched.key.namespace_ before.functions.objects := by
    have stored := Store.mem_of_find?_eq_some found
    unfold inNamespace
    split
    · exact stored
    · exact List.mem_filter.mpr ⟨stored, by simpa using sameNamespace⟩
  have unused := List.any_eq_false.mp noOther function member
  simpa [shares] using unused

theorem identityOnly_key (key : NamespacedName) :
    IdentityOnly fun function => function.key = key :=
  fun _ _ keyEq _ _ uses => keyEq.symm.trans uses

theorem identityOnly_usesRuntimeOf (patched : Function) :
    IdentityOnly (UsesRuntimeOf patched) := by
  rintro first second keyEq projectEq languageEq ⟨dynamic, sameNamespace, shares⟩
  refine ⟨dynamic, keyEq ▸ sameNamespace, ?_⟩
  unfold sharesRuntime at shares ⊢
  rwa [← keyEq, ← projectEq, ← languageEq]

/-- A safe deletion takes no runtime from an active function. -/
theorem Runs.idle_of_safe {early late : List (ClusterEvent Pid)} {event : ClusterEvent Pid}
    (ran : Runs cluster tasks (early ++ event :: late) last)
    (isCleanup : (tasks event.pid).deactivates = true)
    {nameOf : Function → String} {key : NamespacedName}
    (deletes : deletedRuntime event.request = some (nameOf, key))
    (safe : SafeDeletion tasks early event nameOf key) : Idle event.before nameOf key := by
  obtain ⟨function, patched, history, wasPatched⟩ := ran.patched_of_deletes isCleanup deletes
  obtain ⟨first, response, ownEq, listed, patchedEq, noPatches, unshared⟩ := wasPatched
  obtain ⟨before, patching, since, rfl, isOwn, patchingEq, -, rfl⟩ :=
    Event.exists_split_of_own_eq ownEq
  obtain ⟨_, -, -, -, -, active, -⟩ := listed
  obtain ⟨_, lastEq, accepted, acceptedEq, notReactivated, notUsed, noCollision⟩ := safe
  rw [lastPatch_eq isOwn (congrArg (fun answered => isPatch answered.1) patchingEq)
    noPatches] at lastEq
  obtain rfl := Option.some.inj lastEq
  obtain ⟨_, patchExecuted⟩ := ran.executed_of_answered_eq (by simp) patchingEq
  rw [patchingEq] at acceptedEq
  cases response with
  | error err => cases acceptedEq
  | ok patchedByServer =>
      obtain rfl : patched = patchedByServer := patchedEq
      obtain rfl : patched = accepted := Option.some.inj acceptedEq
      have patchedIdle := ran.noneActive (identityOnly_key patched.key)
        (noneActive_of_patch active patchExecuted) notReactivated
      intro other stored sameNamespace sameName
      by_contra isActive
      rw [Bool.not_eq_false] at isActive
      have found := Store.find?_key_of_mem stored
      rcases noCollision other stored sameNamespace sameName isActive with samekey | uses
      · rw [patchedIdle other.key other found samekey] at isActive
        cases isActive
      · obtain ⟨items, after, ownEq, noOther⟩ := unshared uses.1
        rw [← List.nil_append (_ :: _)] at ownEq
        obtain ⟨start, listing, rest, rfl, listingOwn, listingEq, noneBefore, -⟩ :=
          Event.exists_split_of_own_eq ownEq
        obtain ⟨_, listExecuted⟩ := ran.executed_of_answered_eq (by simp) listingEq
        rw [sinceList_eq noneBefore listingOwn
          (congrArg (fun answered => isList answered.1) listingEq)] at notUsed
        rw [← List.cons_append, ← List.append_assoc] at ran
        have usersIdle := ran.noneActive (identityOnly_usesRuntimeOf patched)
          (noneActive_of_list noOther listExecuted) notUsed
        rw [usersIdle other.key other found uses] at isActive
        cases isActive

/-- In every run in which all deletions are safe, cleanup deletes no runtime of
an active function. -/
theorem deletesIdleRuntimes_of_safe (cluster : Cluster) (tasks : Pid → Task)
    (schedule : List (Pid × ApiCall.Circumstance))
    (safe : SafeDeletions tasks (eventsOf cluster tasks schedule)) :
    DeletesIdleRuntimes tasks (eventsOf cluster tasks schedule) := by
  have ran : Runs cluster tasks (eventsOf cluster tasks schedule) _ := Processes.ran_run _ _
  intro early event late split isCleanup deleted deletes
  exact (split ▸ ran).idle_of_safe isCleanup deletes
    (safe early event late split isCleanup deleted deletes)

/-! ### One function in Go -/

def goFunction : Function where
  key := ⟨"default", "one"⟩
  version := 1
  content :=
    { isActive := true
      isAsync := false
      deProvisionTime := .rfc3339 100
      language := "go"
      name := "one"
      method := ""
      project := "projone"
      gitCreds := "" }

/-- The active function with its runtime; its lease ended at second 100. -/
def goCluster : Cluster where
  functions := (Store.empty.create goFunction.key goFunction.content).2
  deployments := (Store.empty.create ⟨"default", getDeploymentName goFunction⟩
    (newDeployment defaultSettings goFunction)).2
  services := (Store.empty.create ⟨"default", getServiceName goFunction⟩
    (newService goFunction)).2
  clock := 200 * second

def oneCleanup : Nat → Task :=
  fun _ => .cleanup "default"

/-- The pass alone, without failures. -/
def undisturbedPass : List (Nat × ApiCall.Circumstance) :=
  List.replicate 7 (0, ⟨false, 0⟩)

theorem undisturbedPass_deletesIdle :
    DeletesIdleRuntimes oneCleanup (eventsOf goCluster oneCleanup undisturbedPass) :=
  deletesIdleRuntimes_of_safe goCluster oneCleanup undisturbedPass (by decide)

/-- The pass alone, with an API server that is unavailable for its patch. -/
def failingPatch : List (Nat × ApiCall.Circumstance) :=
  [false, false, true, false, false].map fun unavailable => (0, ⟨unavailable, 0⟩)

/-- After the failed patch the active function loses its Deployment. -/
theorem failingPatch_deletesActive :
    ¬ DeletesIdleRuntimes oneCleanup (eventsOf goCluster oneCleanup failingPatch) := by
  decide

end Operator

end Litefunctions
