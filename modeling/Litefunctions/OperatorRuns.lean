import Litefunctions.FunctionController
import Litefunctions.FunctionCreations

/-!
# Interleaved runs of the operator

Any number of remote calls, reconciliations and cleanup passes run against one
cluster, interleaved at single calls to the API server.  Whatever the
interleaving, a step changes Function objects in one of few ways: an accepted
update changes exactly the object that its process read.
-/

namespace Litefunctions

namespace Operator

open Program

/-- What a process of the operator does. -/
inductive Task where
  | createFunction (req : CreateFunctionRequest)
  | activate (keepWarmDuration : Int) (namespace_ name : String)
  | getStatus (keepWarmDuration : Int) (namespace_ name : String)
  | reconcile (cfg : Settings) (key : NamespacedName)
  | cleanup (namespace_ : String)

/-- What a process of the operator returns. -/
inductive Outcome where
  | created (result : Except Status Bool)
  | activated (result : Except Status ActivateResponse)
  | status (result : Except Status Bool)
  | reconciled (result : Except StoreError Unit)
  | cleaned (result : Except StoreError Unit)

namespace Task

def program : Task → ApiProgram Outcome
  | createFunction req => do return .created (← Operator.createFunction req)
  | activate keepWarmDuration namespace_ name => do
      return .activated (← Operator.activate keepWarmDuration namespace_ name)
  | getStatus keepWarmDuration namespace_ name => do
      return .status (← Operator.getStatus keepWarmDuration namespace_ name)
  | reconcile cfg key => do return .reconciled (← Operator.reconcile cfg key)
  | cleanup namespace_ => do return .cleaned (← runCleanup namespace_)

/-- The tasks that make functions active. -/
def activates : Task → Bool
  | activate _ _ _ => true
  | _ => false

/-- The tasks that patch functions. -/
def deactivates : Task → Bool
  | cleanup _ => true
  | _ => false

end Task

/-! ### What a process writes -/

/-- Whether a call may change Function objects. -/
def changesFunctions : ApiCall → Bool
  | .functions (.get _) | .functions .list => false
  | .functions _ => true
  | _ => false

/-- An assertion that allows what the tasks of the operator do: anything that
changes no Function object, to renew the lease of an object that was read, and,
where these are done, to activate it, to deactivate functions by a patch, and
to create an object. -/
structure AllowsTask (activates deactivates : Bool) (assertion : ApiHistory → ApiCall → Prop) :
    Prop where
  quiet : ∀ history call, changesFunctions call = false → assertion history call
  renewal : ∀ history key read time, ⟨.functions (.get key), Except.ok read⟩ ∈ history →
    assertion history (.functions (.update
      (Function.withLease (if activates then Function.setActive read true else read) time)))
  deactivation : deactivates = true → ∀ history function,
    assertion history (.functions (.patch function.key (deactivation function)))
  creation : ∀ history (req : CreateFunctionRequest),
    assertion history (.functions (.create req.key (newSpec req)))

section Calls

variable {activates deactivates : Bool} {assertion : ApiHistory → ApiCall → Prop}

abbrev AlwaysAlong {Result : Type} (assertion : ApiHistory → ApiCall → Prop)
    (history : ApiHistory) (program : ApiProgram Result) : Prop :=
  program.Along assertion (fun _ _ => True) history

theorem createFunction_along (allows : AllowsTask activates deactivates assertion)
    (req : CreateFunctionRequest) (history : ApiHistory) :
    AlwaysAlong assertion history (createFunction req) := by
  unfold createFunction createFunctionIfNotExists
  split
  · trivial
  · simp only [along_bind]
    apply And.intro (allows.quiet _ _ rfl)
    intro response
    rcases response with (_ | _ | _ | _) | _
    · apply And.intro (allows.creation _ req)
      intro created
      cases created <;> trivial
    all_goals trivial

theorem getFunction_along (allows : AllowsTask activates deactivates assertion)
    (namespace_ name : String) (history : ApiHistory) :
    (getFunction namespace_ name).Along assertion
      (fun after result => ∀ function, result = .ok function →
        ⟨.functions (.get ⟨namespace_, name⟩), Except.ok function⟩ ∈ after) history := by
  unfold getFunction
  simp only [along_bind]
  apply And.intro (allows.quiet _ _ rfl)
  intro response
  cases response <;> simp

theorem activate_along (allows : AllowsTask true deactivates assertion)
    (keepWarmDuration : Int) (namespace_ name : String) (history : ApiHistory) :
    AlwaysAlong assertion history (activate keepWarmDuration namespace_ name) := by
  unfold activate markFunctionActive
  split
  · trivial
  · simp only [along_bind]
    apply (getFunction_along allows namespace_ name history).imp (fun _ _ => id)
    rintro after (err | function) read
    · trivial
    · refine ⟨allows.quiet _ _ rfl, fun now => ⟨?_, fun response => ?_⟩⟩
      · exact allows.renewal _ _ function _ (List.mem_append_left _ (read function rfl))
      · cases response <;> trivial

theorem getStatus_along (allows : AllowsTask false deactivates assertion)
    (keepWarmDuration : Int) (namespace_ name : String) (history : ApiHistory) :
    AlwaysAlong assertion history (getStatus keepWarmDuration namespace_ name) := by
  unfold getStatus isFunctionActive extendFunctionLease
  split
  · trivial
  · simp only [along_bind]
    apply (getFunction_along allows namespace_ name history).imp (fun _ _ => id)
    rintro after (err | checked) -
    · trivial
    · simp only [pure_eq_done, along_done]
      split
      · trivial
      · trivial
      · simp only [along_bind]
        apply (getFunction_along allows namespace_ name after).imp (fun _ _ => id)
        rintro after (err | function) read
        · trivial
        · simp only
          split
          · trivial
          · refine ⟨allows.quiet _ _ rfl, fun now => ⟨?_, fun response => ?_⟩⟩
            · exact allows.renewal _ _ function _ (List.mem_append_left _ (read function rfl))
            · cases response <;> trivial

theorem hasOtherActive_along (allows : AllowsTask activates deactivates assertion)
    (function : Function) (history : ApiHistory) :
    AlwaysAlong assertion history (hasOtherActiveFunctionUsingSharedRuntime function) := by
  unfold hasOtherActiveFunctionUsingSharedRuntime
  split
  · trivial
  · apply And.intro (allows.quiet _ _ rfl)
    intro response
    cases response <;> trivial

theorem deleteDeployment_along (allows : AllowsTask activates deactivates assertion)
    (key : NamespacedName) (history : ApiHistory) :
    AlwaysAlong assertion history (deleteDeployment key) := by
  unfold deleteDeployment
  apply And.intro (allows.quiet _ _ rfl)
  intro response
  cases response with
  | error err => trivial
  | ok existing => exact ⟨allows.quiet _ _ rfl, fun _ => trivial⟩

theorem deleteService_along (allows : AllowsTask activates deactivates assertion)
    (key : NamespacedName) (history : ApiHistory) :
    AlwaysAlong assertion history (deleteService key) := by
  unfold deleteService
  apply And.intro (allows.quiet _ _ rfl)
  intro response
  cases response with
  | error err => trivial
  | ok existing => exact ⟨allows.quiet _ _ rfl, fun _ => trivial⟩

theorem deleteRuntime_along (allows : AllowsTask activates deactivates assertion)
    (function : Function) (history : ApiHistory) :
    AlwaysAlong assertion history (deleteRuntime function) := by
  unfold deleteRuntime
  simp only [along_bind]
  apply (hasOtherActive_along allows function history).imp (fun _ _ => id)
  rintro after (err | _ | _) -
  · trivial
  · simp only [along_bind]
    apply (deleteDeployment_along allows _ after).imp (fun _ _ => id)
    rintro deleted (err | _) -
    · trivial
    · exact deleteService_along allows _ deleted
  · trivial

theorem createOrUpdateDeployment_along (allows : AllowsTask activates deactivates assertion)
    (cfg : Settings) (function : Function) (history : ApiHistory) :
    AlwaysAlong assertion history (createOrUpdateDeployment cfg function) := by
  unfold createOrUpdateDeployment
  apply And.intro (allows.quiet _ _ rfl)
  intro response
  rcases response with (_ | _ | _ | _) | _
  all_goals first | trivial | exact ⟨allows.quiet _ _ rfl, fun _ => trivial⟩

theorem createOrUpdateService_along (allows : AllowsTask activates deactivates assertion)
    (function : Function) (history : ApiHistory) :
    AlwaysAlong assertion history (createOrUpdateService function) := by
  unfold createOrUpdateService
  apply And.intro (allows.quiet _ _ rfl)
  intro response
  rcases response with (_ | _ | _ | _) | _
  all_goals first | trivial | exact ⟨allows.quiet _ _ rfl, fun _ => trivial⟩

theorem reconcile_along (allows : AllowsTask false deactivates assertion) (cfg : Settings)
    (key : NamespacedName) (history : ApiHistory) :
    AlwaysAlong assertion history (reconcile cfg key) := by
  unfold reconcile
  simp only [along_bind]
  apply And.intro (allows.quiet _ _ rfl)
  intro response
  cases response with
  | error err => trivial
  | ok function =>
      simp only [along_done]
      split
      · exact deleteRuntime_along allows function _
      · simp only [along_bind]
        apply (createOrUpdateDeployment_along allows cfg function _).extends.imp (fun _ _ => id)
        rintro deployed (err | _) ⟨early, -⟩
        · trivial
        · simp only [along_bind]
          apply (createOrUpdateService_along allows function _).extends.imp (fun _ _ => id)
          rintro served (err | _) ⟨late, -⟩
          · trivial
          · refine ⟨allows.quiet _ _ rfl, fun now => ⟨?_, fun _ => trivial⟩⟩
            refine allows.renewal _ key function _ (List.mem_append_left _ ?_)
            exact (early.trans late).subset (by simp)

theorem deactivate_along (allows : AllowsTask activates true assertion) (function : Function)
    (history : ApiHistory) : AlwaysAlong assertion history (deactivate function) := by
  unfold deactivate
  simp only [along_bind]
  apply And.intro (allows.deactivation rfl _ function)
  intro response
  apply (hasOtherActive_along allows _ _).imp (fun _ _ => id)
  rintro after (err | _ | _) -
  · trivial
  · simp only [along_bind]
    apply (deleteDeployment_along allows _ after).imp (fun _ _ => id)
    intro deleted _ _
    exact (deleteService_along allows _ deleted).imp (fun _ _ => id) fun _ _ _ => trivial
  · trivial

theorem cleanupFunctions_along (allows : AllowsTask activates true assertion) (now : Int)
    (items : List Function) (history : ApiHistory) :
    AlwaysAlong assertion history (cleanupFunctions now items) := by
  induction items generalizing history with
  | nil => trivial
  | cons function items ih =>
      simp only [AlwaysAlong, cleanupFunctions, along_bind]
      have one : AlwaysAlong assertion history (cleanupFunction now function) := by
        unfold cleanupFunction
        split
        · split
          · trivial
          · split
            · exact deactivate_along allows function history
            · trivial
        · trivial
      exact one.imp (fun _ _ => id) fun after _ _ => ih after

theorem runCleanup_along (allows : AllowsTask activates true assertion) (namespace_ : String)
    (history : ApiHistory) : AlwaysAlong assertion history (runCleanup namespace_) := by
  unfold runCleanup
  simp only [along_bind]
  apply And.intro (allows.quiet _ _ rfl)
  intro response
  cases response with
  | error err => trivial
  | ok items =>
      simp only [along_done, along_bind]
      apply And.intro (allows.quiet _ _ rfl)
      intro now
      exact (cleanupFunctions_along allows now _ _).imp (fun _ _ => id) fun _ _ _ => trivial

/-- What allows the calls of a task holds of each of them. -/
theorem Task.program_along (task : Task)
    (allows : AllowsTask task.activates task.deactivates assertion) :
    AlwaysAlong assertion [] task.program := by
  cases task with
  | createFunction req => exact (createFunction_along allows req []).map _
  | activate keepWarmDuration namespace_ name =>
      exact (activate_along allows keepWarmDuration namespace_ name []).map _
  | getStatus keepWarmDuration namespace_ name =>
      exact (getStatus_along allows keepWarmDuration namespace_ name []).map _
  | reconcile cfg key => exact (reconcile_along allows cfg key []).map _
  | cleanup namespace_ => exact (runCleanup_along allows namespace_ []).map _

/-- The calls that write Function objects: an update writes back an object
that was read, with a new lease and active only where the task activates, and
only cleanup patches. -/
def Writes (activates deactivates : Bool) (history : ApiHistory) : ApiCall → Prop
  | .functions (.update object) =>
      ∃ key read time, ⟨.functions (.get key), Except.ok read⟩ ∈ history ∧
        object = Function.withLease (if activates then Function.setActive read true else read) time
  | .functions (.patch _ patch) => deactivates = true ∧ patch.isActive ≠ some true
  | .functions (.create _ spec) => spec.isActive = false
  | .functions (.delete _) => False
  | _ => True

theorem allowsTask_writes : AllowsTask activates deactivates (Writes activates deactivates) where
  quiet history call isQuiet := by
    rcases call with (_ | _ | _ | _ | _ | _) | _ | _ | _ <;> trivial
  renewal history key read time member := ⟨key, read, time, member, rfl⟩
  deactivation deactivates history function := by
    apply And.intro deactivates
    by_cases inactive : function.content.isActive = false <;>
      simp [deactivation, mergeFrom, Function.setActive, inactive]
  creation history req := rfl

/-- Every task writes Function objects as `Writes` says. -/
theorem Task.program_writes (task : Task) :
    AlwaysAlong (Writes task.activates task.deactivates) [] task.program :=
  task.program_along allowsTask_writes

end Calls

/-! ### Runs -/

section Runs

variable {Pid : Type} [DecidableEq Pid]

/-- The processes of the operator before their first calls. -/
def start (cluster : Cluster) (tasks : Pid → Task) :
    Processes Pid ApiCall ApiCall.Response Outcome Cluster where
  shared := cluster
  program pid := (tasks pid).program

/-- The events of the operator's tasks under a schedule. -/
def eventsOf (cluster : Cluster) (tasks : Pid → Task)
    (schedule : List (Pid × ApiCall.Circumstance)) : List (ClusterEvent Pid) :=
  ((start cluster tasks).run ApiCall.execute schedule).1

/-- The tasks can run from the cluster through these events. -/
abbrev Runs (cluster : Cluster) (tasks : Pid → Task) (events : List (ClusterEvent Pid))
    (last : Processes Pid ApiCall ApiCall.Response Outcome Cluster) : Prop :=
  Processes.Ran ApiCall.execute (start cluster tasks) events last

/-- How one call changes the stored functions. -/
inductive FunctionStep (activates : Bool) :
    Answered ApiCall ApiCall.Response → Store NamespacedName FunctionSpec →
      Store NamespacedName FunctionSpec → Prop
  /-- Nothing is stored. -/
  | unchanged {answered store}
      (noUpdate : ∀ object written, answered ≠ ⟨.functions (.update object), Except.ok written⟩) :
      FunctionStep activates answered store store
  /-- The stored object gets a new lease, and becomes active where the task
  activates. -/
  | updated {store after} {object written stored : Function} {time : Int}
      (found : store.find? object.key = some stored)
      (objectEq : object =
        Function.withLease (if activates then Function.setActive stored true else stored) time)
      (contentEq : written.content = object.content)
      (stores : ∀ other, after.find? other =
        if other = object.key then some written else store.find? other) :
      FunctionStep activates ⟨.functions (.update object), Except.ok written⟩ store after
  | patched {store after} {key : NamespacedName} {patch : FunctionPatch}
      {stored written : Function}
      (found : store.find? key = some stored) (deactivates : patch.isActive ≠ some true)
      (contentEq : written.content = patch.apply stored.content)
      (stores : ∀ other, after.find? other =
        if other = key then some written else store.find? other) :
      FunctionStep activates ⟨.functions (.patch key patch), Except.ok written⟩ store after
  | created {store after} {key : NamespacedName} {spec : FunctionSpec} {written : Function}
      (absent : store.find? key = none) (inactive : spec.isActive = false)
      (contentEq : written.content = spec)
      (stores : ∀ other, after.find? other =
        if other = key then some written else store.find? other) :
      FunctionStep activates ⟨.functions (.create key spec), Except.ok written⟩ store after

variable {cluster : Cluster} {tasks : Pid → Task} {early late : List (ClusterEvent Pid)}
variable {event : ClusterEvent Pid}
variable {last : Processes Pid ApiCall ApiCall.Response Outcome Cluster}

theorem execute_functions {call : FunctionCall} {circumstance : ApiCall.Circumstance}
    {cluster after : Cluster} {value : call.Value}
    (executed : (ApiCall.functions call).execute circumstance cluster = some (.ok value, after)) :
    call.execute FunctionPatch.apply cluster.functions = (.ok value, after.functions) := by
  have answered := Option.some.inj executed
  simp only [ApiCall.answer] at answered
  split at answered
  · simp at answered
  · obtain ⟨responseEq, rfl⟩ := Prod.mk.inj answered
    rw [← responseEq]

/-- Only an accepted call to the functions changes them. -/
theorem execute_functions_eq (call : ApiCall) (circumstance : ApiCall.Circumstance)
    {cluster after : Cluster} {response : call.Response}
    (executed : call.execute circumstance cluster = some (response, after))
    (notAccepted : ∀ (functionCall : FunctionCall) (value : functionCall.Value),
      (⟨call, response⟩ : Answered ApiCall ApiCall.Response) ≠
        ⟨.functions functionCall, Except.ok value⟩) :
    after.functions = cluster.functions := by
  have answered := Option.some.inj executed
  cases call with
  | functions call =>
      cases response with
      | ok value => exact absurd rfl (notAccepted call value)
      | error err =>
          simp only [ApiCall.answer] at answered
          split at answered
          · rw [← (Prod.mk.inj answered).2]
          · obtain ⟨responseEq, rfl⟩ := Prod.mk.inj answered
            exact StoreCall.execute_eq_error (Prod.ext responseEq rfl)
  | deployments call =>
      simp only [ApiCall.answer] at answered
      split at answered <;> rw [← (Prod.mk.inj answered).2]
  | services call =>
      simp only [ApiCall.answer] at answered
      split at answered <;> rw [← (Prod.mk.inj answered).2]
  | now => rw [← (Prod.mk.inj answered).2]

theorem functions_evolve (call : ApiCall) (circumstance : ApiCall.Circumstance)
    {cluster after : Cluster} {response : call.Response}
    (executed : call.execute circumstance cluster = some (response, after)) :
    Store.Evolves cluster.functions after.functions := by
  by_cases accepted : ∃ (functionCall : FunctionCall) (value : functionCall.Value),
      (⟨call, response⟩ : Answered ApiCall ApiCall.Response) =
        ⟨.functions functionCall, Except.ok value⟩
  · obtain ⟨functionCall, value, answeredEq⟩ := accepted
    cases answeredEq
    have answered := execute_functions executed
    have evolves := functionCall.execute_evolves FunctionPatch.apply cluster.functions
    rwa [answered] at evolves
  · have same := execute_functions_eq call circumstance executed fun functionCall value answeredEq =>
      accepted ⟨functionCall, value, answeredEq⟩
    exact same ▸ .refl _

/-- What a process read and finds in an unchanged version is what it read. -/
theorem Runs.stored_eq_read (ran : Runs cluster tasks (early ++ event :: late) last)
    {key : NamespacedName} {read stored : Function}
    (member : ⟨.functions (.get key), Except.ok read⟩ ∈ Event.own event.pid early)
    (found : event.before.functions.find? read.key = some stored)
    (sameVersion : stored.version = read.version) :
    stored = read := by
  obtain ⟨middle, ranEarly, -⟩ := Processes.ran_append.mp ran
  obtain ⟨reading, readingMember, -, -, circumstance, executed⟩ :=
    ranEarly.executed_of_mem_own member
  obtain ⟨readFound, -⟩ := StoreCall.execute_get_eq_ok (execute_functions executed)
  have evolves : Store.Evolves reading.before.functions event.before.functions :=
    ran.linked.relates_of_mem
      (fun first second => Store.Evolves first.functions second.functions)
      (fun _ => .refl _) .trans
      (fun _ member => functions_evolve _ _ (ran.executed member).choose_spec) readingMember
  rw [Store.key_of_find?_eq_some readFound] at found
  exact evolves.eq_of_version_eq readFound found sameVersion

/-- The inversion of a call whose process writes as `Writes` says and reads
what is stored. -/
theorem functionStep_of_executed {activates deactivates : Bool} {history : ApiHistory} {request : ApiCall}
    {response : request.Response} {circumstance : ApiCall.Circumstance} {before after : Cluster}
    (executed : request.execute circumstance before = some (response, after))
    (writes : Writes activates deactivates history request)
    (storedRead : ∀ {key : NamespacedName} {read stored : Function},
      ⟨.functions (.get key), Except.ok read⟩ ∈ history →
      before.functions.find? read.key = some stored →
      stored.version = read.version → stored = read) :
    FunctionStep activates ⟨request, response⟩ before.functions after.functions := by
  by_cases accepted : ∃ (call : FunctionCall) (value : call.Value),
      (⟨request, response⟩ : Answered ApiCall ApiCall.Response) =
        ⟨.functions call, Except.ok value⟩
  · obtain ⟨call, value, answeredEq⟩ := accepted
    cases answeredEq
    have answered := execute_functions executed
    cases call with
    | get key =>
        rw [(StoreCall.execute_get_eq_ok answered).2]
        exact .unchanged fun object written answeredEq => by cases answeredEq
    | list =>
        rw [(StoreCall.execute_list_eq_ok answered).2]
        exact .unchanged fun object written answeredEq => by cases answeredEq
    | create key spec =>
        obtain ⟨absent, contentEq, stores⟩ := Store.create_eq_ok answered
        exact .created absent writes contentEq stores
    | update object =>
        obtain ⟨stored, found, sameVersion, contentEq, stores⟩ := Store.update_eq_ok answered
        obtain ⟨key, read, time, member, objectEq⟩ := writes
        have keyEq : object.key = read.key := by
          rw [objectEq]
          cases activates <;> rfl
        have versionEq : object.version = read.version := by
          rw [objectEq]
          cases activates <;> rfl
        have storedEq : stored = read :=
          storedRead member (keyEq ▸ found) (sameVersion.trans versionEq)
        exact .updated found (storedEq ▸ objectEq) contentEq stores
    | patch key patch =>
        obtain ⟨stored, found, contentEq, -, stores⟩ := Store.patch_eq_ok answered
        exact .patched found writes.2 contentEq stores
    | delete key => exact absurd writes id
  · have same := execute_functions_eq request circumstance executed fun call value answeredEq =>
      accepted ⟨call, value, answeredEq⟩
    rw [same]
    exact .unchanged fun object written answeredEq => accepted ⟨_, written, answeredEq⟩

/-- Every step of the operator changes the stored functions in one of the ways
of `FunctionStep`. -/
theorem Runs.functionStep (ran : Runs cluster tasks (early ++ event :: late) last) :
    FunctionStep (tasks event.pid).activates event.answered event.before.functions
      event.after.functions := by
  obtain ⟨circumstance, executed⟩ := ran.executed List.mem_append_cons_self
  exact functionStep_of_executed executed (ran.assertion (tasks event.pid).program_writes)
    ran.stored_eq_read

end Runs

end Operator

end Litefunctions
