import Litefunctions.StaleReads

/-!
# Runtimes that the controller has built

`Reconcile` writes the Deployment and the Service of the function that it read,
which may be an old copy.  The copy names the same runtime with the same
content, since nothing changes what a function is.  So in every state every
Deployment and Service is what the controller makes of a function that is
stored at that moment, and the selector of a Deployment never changes while the
names of runtimes do not collide.
-/

namespace Litefunctions

namespace Operator

open Program

/-- The Deployment that `Reconcile` stores for a function. -/
def builtDeployment (cfg : Settings) (function : Function) : Deployment :=
  { newDeployment cfg function with owner := runtimeOwner function }

/-- The Service that `Reconcile` stores for a function; the addresses are those
that the cluster gave it. -/
def builtService (function : Function) (clusterIP : String) (clusterIPs : List String) : Service :=
  { newService function with owner := runtimeOwner function, clusterIP, clusterIPs }

def deploymentKey (function : Function) : NamespacedName :=
  ⟨function.key.namespace_, getDeploymentName function⟩

def serviceKey (function : Function) : NamespacedName :=
  ⟨function.key.namespace_, getServiceName function⟩

/-! ### The identity of a function decides its runtime -/

section Identity

variable {old new : Function}

theorem SameIdentity.trans {first second third : FunctionSpec}
    (early : SameIdentity first second) (late : SameIdentity second third) :
    SameIdentity first third := by
  obtain ⟨language, project, name, method, isAsync, gitCreds⟩ := early
  obtain ⟨newLanguage, newProject, newName, newMethod, newAsync, newCreds⟩ := late
  exact ⟨newLanguage.trans language, newProject.trans project, newName.trans name,
    newMethod.trans method, newAsync.trans isAsync, newCreds.trans gitCreds⟩

/-- One object at two times. -/
structure SameFunction (old new : Function) : Prop where
  key : new.key = old.key
  identity : SameIdentity old.content new.content

theorem SameFunction.trans {middle : Function} (early : SameFunction old middle)
    (late : SameFunction middle new) : SameFunction old new :=
  ⟨late.key.trans early.key, early.identity.trans late.identity⟩

theorem SameFunction.runtimeLabels_eq (same : SameFunction old new) :
    runtimeLabels new = runtimeLabels old := by
  obtain ⟨language, project, name, -⟩ := same.identity
  simp only [runtimeLabels, language, project, name]

theorem SameFunction.runtimeOwner_eq (same : SameFunction old new) :
    runtimeOwner new = runtimeOwner old := by
  simp only [runtimeOwner, same.key, same.identity.1]

theorem SameFunction.deploymentKey_eq (same : SameFunction old new) :
    deploymentKey new = deploymentKey old := by
  obtain ⟨language, project, -⟩ := same.identity
  simp only [deploymentKey, getDeploymentName, same.key, language, project]

theorem SameFunction.serviceKey_eq (same : SameFunction old new) :
    serviceKey new = serviceKey old := by
  obtain ⟨language, project, -⟩ := same.identity
  simp only [serviceKey, getServiceName, same.key, language, project]

theorem SameFunction.builtDeployment_eq (same : SameFunction old new) (cfg : Settings) :
    builtDeployment cfg new = builtDeployment cfg old := by
  have labels := same.runtimeLabels_eq
  have owner := same.runtimeOwner_eq
  obtain ⟨language, project, name, -⟩ := same.identity
  have image : runtimeImage cfg new = runtimeImage cfg old := by
    simp only [runtimeImage, same.key, language, project]
  simp only [builtDeployment, newDeployment, labels, owner, image, language, project, name]

theorem SameFunction.builtService_eq (same : SameFunction old new) (clusterIP : String)
    (clusterIPs : List String) :
    builtService new clusterIP clusterIPs = builtService old clusterIP clusterIPs := by
  simp only [builtService, newService, same.runtimeLabels_eq, same.runtimeOwner_eq]

end Identity

/-! ### What the jobs write -/

/-- The settings of a job that reconciles. -/
def Job.settings : Job → Option Settings
  | runTask (.reconcile cfg _) => some cfg
  | _ => none

/-- The function was read in these calls. -/
def WasRead (history : ApiHistory) (function : Function) : Prop :=
  ∃ key, ⟨.functions (.get key), Except.ok function⟩ ∈ history

/-- Deployments and Services are written only for functions that were read. -/
def Builds (cfg : Option Settings) (history : ApiHistory) : ApiCall → Prop
  | .deployments (.create key content) =>
      ∃ function settings, WasRead history function ∧ cfg = some settings ∧
        key = deploymentKey function ∧ content = builtDeployment settings function
  | .deployments (.update object) =>
      ∃ function settings, WasRead history function ∧ cfg = some settings ∧
        object.key = deploymentKey function ∧ object.content = builtDeployment settings function
  | .services (.create key content) =>
      ∃ function clusterIP clusterIPs, WasRead history function ∧
        key = serviceKey function ∧ content = builtService function clusterIP clusterIPs
  | .services (.update object) =>
      ∃ function clusterIP clusterIPs, WasRead history function ∧
        object.key = serviceKey function ∧ object.content = builtService function clusterIP clusterIPs
  | _ => True

/-- Calls that write no Deployment and no Service. -/
def BuildsNothing : ApiCall → Prop
  | .deployments (.create _ _) => False
  | .deployments (.update _) => False
  | .services (.create _ _) => False
  | .services (.update _) => False
  | _ => True

section Calls

variable {cfg : Option Settings}

theorem builds_of_nothing {history : ApiHistory} {request : ApiCall}
    (nothing : BuildsNothing request) : Builds cfg history request := by
  rcases request with _ | (_ | _ | _ | _ | _ | _) | (_ | _ | _ | _ | _ | _) | _
  all_goals trivial

theorem builds_of_makes {Result : Type} {program : ApiProgram Result} {history : ApiHistory}
    (makes : program.Makes BuildsNothing) :
    program.Along (Builds cfg) (fun _ _ => True) history :=
  (makes.along history).imp (fun _ _ => builds_of_nothing) fun _ _ => id

theorem getFunction_nothing (namespace_ name : String) :
    (getFunction namespace_ name).Makes BuildsNothing := by
  unfold getFunction
  apply And.intro trivial
  intro response
  cases response <;> trivial

theorem createFunction_nothing (req : CreateFunctionRequest) :
    (createFunction req).Makes BuildsNothing := by
  unfold createFunction createFunctionIfNotExists
  split
  · trivial
  · apply And.intro trivial
    intro response
    rcases response with (_ | _ | _ | _) | _
    · apply And.intro trivial
      intro created
      cases created <;> trivial
    all_goals trivial

theorem activate_nothing (keepWarmDuration : Int) (namespace_ name : String) :
    (activate keepWarmDuration namespace_ name).Makes BuildsNothing := by
  unfold activate markFunctionActive
  split
  · trivial
  · apply Makes.bind
    · apply (getFunction_nothing namespace_ name).bind
      rintro (err | function)
      · trivial
      · refine ⟨trivial, fun now => ⟨trivial, fun response => ?_⟩⟩
        cases response <;> trivial
    · rintro (err | function) <;> trivial

theorem getStatus_nothing (keepWarmDuration : Int) (namespace_ name : String) :
    (getStatus keepWarmDuration namespace_ name).Makes BuildsNothing := by
  unfold getStatus isFunctionActive extendFunctionLease
  split
  · trivial
  · apply Makes.bind
    · apply (getFunction_nothing namespace_ name).bind
      rintro (err | function) <;> trivial
    · rintro (err | _ | _)
      · trivial
      · trivial
      · apply Makes.bind
        · apply (getFunction_nothing namespace_ name).bind
          rintro (err | function)
          · trivial
          · simp only
            split
            · trivial
            · refine ⟨trivial, fun now => ⟨trivial, fun response => ?_⟩⟩
              cases response <;> trivial
        · rintro (err | _) <;> trivial

theorem hasOtherActive_nothing (function : Function) :
    (hasOtherActiveFunctionUsingSharedRuntime function).Makes BuildsNothing := by
  unfold hasOtherActiveFunctionUsingSharedRuntime
  split
  · trivial
  · apply And.intro trivial
    intro response
    cases response <;> trivial

theorem deleteDeployment_nothing (key : NamespacedName) :
    (deleteDeployment key).Makes BuildsNothing := by
  unfold deleteDeployment
  apply And.intro trivial
  intro response
  cases response with
  | error err => trivial
  | ok existing => exact ⟨trivial, fun _ => trivial⟩

theorem deleteService_nothing (key : NamespacedName) :
    (deleteService key).Makes BuildsNothing := by
  unfold deleteService
  apply And.intro trivial
  intro response
  cases response with
  | error err => trivial
  | ok existing => exact ⟨trivial, fun _ => trivial⟩

theorem deleteRuntime_nothing (function : Function) :
    (deleteRuntime function).Makes BuildsNothing := by
  unfold deleteRuntime
  apply (hasOtherActive_nothing function).bind
  rintro (err | _ | _)
  · trivial
  · apply (deleteDeployment_nothing _).bind
    rintro (err | _)
    · trivial
    · exact deleteService_nothing _
  · trivial

theorem cleanupFunction_nothing (now : Int) (function : Function) :
    (cleanupFunction now function).Makes BuildsNothing := by
  unfold cleanupFunction
  split
  · split
    · trivial
    · split
      · apply And.intro trivial
        intro response
        apply (hasOtherActive_nothing _).bind
        rintro (err | _ | _)
        · trivial
        · apply (deleteDeployment_nothing _).bind
          intro _
          exact (deleteService_nothing _).bind fun _ => trivial
        · trivial
      · trivial
  · trivial

theorem cleanupFunctions_nothing (now : Int) (items : List Function) :
    (cleanupFunctions now items).Makes BuildsNothing := by
  induction items with
  | nil => trivial
  | cons function items ih => exact (cleanupFunction_nothing now function).bind fun _ => ih

theorem runCleanup_nothing (namespace_ : String) :
    (runCleanup namespace_).Makes BuildsNothing := by
  unfold runCleanup
  apply And.intro trivial
  intro response
  cases response with
  | error err => trivial
  | ok items =>
      apply And.intro trivial
      intro now
      exact (cleanupFunctions_nothing now (inNamespace namespace_ items)).bind fun _ => trivial

theorem markFunctionInactive_nothing (namespace_ name : String) :
    (markFunctionInactive namespace_ name).Makes BuildsNothing := by
  unfold markFunctionInactive
  apply (getFunction_nothing namespace_ name).bind
  rintro (err | function)
  · trivial
  · simp only
    split
    · trivial
    · apply And.intro trivial
      intro response
      cases response <;> trivial

theorem createOrUpdateDeployment_builds (settings : Settings) {function : Function}
    {history : ApiHistory} (read : WasRead history function) :
    (createOrUpdateDeployment settings function).Along (Builds (some settings))
      (fun _ _ => True) history := by
  have still : ∀ answered : Answered ApiCall ApiCall.Response,
      WasRead (history ++ [answered]) function := by
    obtain ⟨key, member⟩ := read
    exact fun answered => ⟨key, List.mem_append_left _ member⟩
  unfold createOrUpdateDeployment
  apply And.intro trivial
  intro response
  rcases response with (_ | _ | _ | _) | existing
  · exact ⟨⟨function, settings, still _, rfl, rfl, rfl⟩, fun _ => trivial⟩
  · trivial
  · trivial
  · trivial
  · exact ⟨⟨function, settings, still _, rfl, rfl, rfl⟩, fun _ => trivial⟩

theorem createOrUpdateService_builds {function : Function} {history : ApiHistory}
    (read : WasRead history function) :
    (createOrUpdateService function).Along (Builds cfg) (fun _ _ => True) history := by
  have still : ∀ answered : Answered ApiCall ApiCall.Response,
      WasRead (history ++ [answered]) function := by
    obtain ⟨key, member⟩ := read
    exact fun answered => ⟨key, List.mem_append_left _ member⟩
  unfold createOrUpdateService
  apply And.intro trivial
  intro response
  rcases response with (_ | _ | _ | _) | existing
  · exact ⟨⟨function, "", [], still _, rfl, rfl⟩, fun _ => trivial⟩
  · trivial
  · trivial
  · trivial
  · exact ⟨⟨function, existing.content.clusterIP, existing.content.clusterIPs, still _, rfl, rfl⟩,
      fun _ => trivial⟩

theorem reconcile_builds (settings : Settings) (key : NamespacedName) :
    (reconcile settings key).Along (Builds (some settings)) (fun _ _ => True) [] := by
  unfold reconcile
  simp only [along_bind]
  apply And.intro trivial
  intro response
  cases response with
  | error err => trivial
  | ok function =>
      have read : WasRead ([] ++ [⟨.functions (.get key), Except.ok function⟩]) function :=
        ⟨key, List.mem_singleton_self _⟩
      simp only [along_done]
      split
      · exact builds_of_makes (deleteRuntime_nothing function)
      · simp only [along_bind]
        apply (createOrUpdateDeployment_builds settings read).extends.imp (fun _ _ => id)
        rintro deployed (err | _) ⟨grown, -⟩
        · trivial
        · have stillRead : WasRead deployed function := by
            obtain ⟨readKey, member⟩ := read
            exact ⟨readKey, grown.subset member⟩
          simp only [along_bind]
          apply (createOrUpdateService_builds stillRead).imp (fun _ _ => id)
          rintro served (err | _) -
          · trivial
          · exact ⟨trivial, fun now => ⟨trivial, fun _ => trivial⟩⟩

theorem Job.program_builds (job : Job) :
    job.program.Along (Builds job.settings) (fun _ _ => True) [] := by
  cases job with
  | markInactive namespace_ name =>
      exact (builds_of_makes (markFunctionInactive_nothing namespace_ name)).map _
  | runTask task =>
      cases task with
      | createFunction req =>
          exact ((builds_of_makes (createFunction_nothing req)).map _).map _
      | activate keepWarmDuration namespace_ name =>
          exact ((builds_of_makes (activate_nothing keepWarmDuration namespace_ name)).map _).map _
      | getStatus keepWarmDuration namespace_ name =>
          exact ((builds_of_makes (getStatus_nothing keepWarmDuration namespace_ name)).map _).map _
      | reconcile settings key => exact ((reconcile_builds settings key).map _).map _
      | cleanup namespace_ => exact ((builds_of_makes (runCleanup_nothing namespace_)).map _).map _

end Calls

/-! ### Well-built clusters -/

/-- Every Deployment and every Service is what the controller makes of a
function that is stored. -/
structure WellBuilt (mayUse : Settings → Prop) (cluster : Cluster) : Prop where
  deployments : ∀ key object, cluster.deployments.find? key = some object →
    ∃ function settings, cluster.functions.find? function.key = some function ∧
      mayUse settings ∧ key = deploymentKey function ∧
      object.content = builtDeployment settings function
  services : ∀ key object, cluster.services.find? key = some object →
    ∃ function clusterIP clusterIPs, cluster.functions.find? function.key = some function ∧
      key = serviceKey function ∧ object.content = builtService function clusterIP clusterIPs

/-- Whatever is found after a call was there or was written by it. -/
theorem found_of_execute {Content : Type} [DecidableEq Content]
    {call : StoreCall NamespacedName Content Empty} {before after : Store NamespacedName Content}
    {response : call.Response} {key : NamespacedName} {object : Object NamespacedName Content}
    (executed : call.execute (fun edit => edit.elim) before = (response, after))
    (found : after.find? key = some object) :
    before.find? key = some object ∨ call = .create key object.content ∨
      ∃ written, call = .update written ∧ written.key = key ∧ written.content = object.content := by
  cases response with
  | error err =>
      rw [StoreCall.execute_eq_error executed] at found
      exact .inl found
  | ok value =>
      cases call with
      | get other =>
          rw [(StoreCall.execute_get_eq_ok executed).2] at found
          exact .inl found
      | list =>
          rw [(StoreCall.execute_list_eq_ok executed).2] at found
          exact .inl found
      | create other content =>
          obtain ⟨-, contentEq, stores⟩ := Store.create_eq_ok executed
          rw [stores] at found
          split at found
          · next sameKey =>
              obtain rfl := Option.some.inj found
              exact .inr (.inl (by rw [sameKey, contentEq]))
          · exact .inl found
      | update written =>
          obtain ⟨-, -, -, contentEq, stores⟩ := Store.update_eq_ok executed
          rw [stores] at found
          split at found
          · next sameKey =>
              obtain rfl := Option.some.inj found
              exact .inr (.inr ⟨written, rfl, sameKey.symm, contentEq.symm⟩)
          · exact .inl found
      | patch other edit => exact edit.elim
      | delete other =>
          simp only [StoreCall.execute, Store.delete] at executed
          split at executed
          · simp at executed
          · rw [← (Prod.mk.inj executed).2, Store.find?_erase] at found
            split at found
            · cases found
            · exact .inl found

section Steps

variable {mayUse : Settings → Prop}

theorem Keeps.trans {first second third : Store NamespacedName FunctionSpec}
    (early : Keeps True first second) (late : Keeps True second third) :
    Keeps True first third := by
  intro key old found
  obtain ⟨middle, middleFound, toMiddle, -⟩ := early key old found
  obtain ⟨new, newFound, toNew, -⟩ := late key middle middleFound
  exact ⟨new, newFound, toMiddle.trans toNew, fun _ _ => trivial⟩

theorem Keeps.sameFunction {before after : Store NamespacedName FunctionSpec}
    (keeps : Keeps True before after) {key : NamespacedName} {function : Function}
    (found : before.find? key = some function) :
    ∃ stored, after.find? stored.key = some stored ∧ SameFunction function stored := by
  obtain ⟨stored, storedFound, identity, -⟩ := keeps key function found
  have keyEq := Store.key_of_find?_eq_some found
  have storedKey := Store.key_of_find?_eq_some storedFound
  exact ⟨stored, storedKey ▸ storedFound, storedKey.trans keyEq.symm, identity⟩

/-- What is found in a store of runtimes after a call was there before or was
written by the call. -/
theorem found_of_answer {before after : Cluster} {call : ApiCall} {response : call.Response}
    {circumstance : ApiCall.Circumstance}
    (executed : call.execute circumstance before = some (response, after)) :
    (∀ key object, after.deployments.find? key = some object →
      before.deployments.find? key = some object ∨
        call = .deployments (.create key object.content) ∨
        ∃ written, call = .deployments (.update written) ∧ written.key = key ∧
          written.content = object.content) ∧
    ∀ key object, after.services.find? key = some object →
      before.services.find? key = some object ∨
        call = .services (.create key object.content) ∨
        ∃ written, call = .services (.update written) ∧ written.key = key ∧
          written.content = object.content := by
  have answered := Option.some.inj executed
  cases call with
  | functions inner =>
      simp only [ApiCall.answer] at answered
      split at answered <;> obtain ⟨-, rfl⟩ := Prod.mk.inj answered <;>
        exact ⟨fun _ _ => .inl, fun _ _ => .inl⟩
  | deployments inner =>
      simp only [ApiCall.answer] at answered
      split at answered <;> obtain ⟨responseEq, rfl⟩ := Prod.mk.inj answered
      · exact ⟨fun _ _ => .inl, fun _ _ => .inl⟩
      · refine ⟨fun key object found => ?_, fun _ _ => .inl⟩
        rcases found_of_execute rfl found with old | created | ⟨written, updated, rest⟩
        · exact .inl old
        · exact .inr (.inl (congrArg ApiCall.deployments created))
        · exact .inr (.inr ⟨written, congrArg ApiCall.deployments updated, rest⟩)
  | services inner =>
      simp only [ApiCall.answer] at answered
      split at answered <;> obtain ⟨responseEq, rfl⟩ := Prod.mk.inj answered
      · exact ⟨fun _ _ => .inl, fun _ _ => .inl⟩
      · refine ⟨fun _ _ => .inl, fun key object found => ?_⟩
        rcases found_of_execute rfl found with old | created | ⟨written, updated, rest⟩
        · exact .inl old
        · exact .inr (.inl (congrArg ApiCall.services created))
        · exact .inr (.inr ⟨written, congrArg ApiCall.services updated, rest⟩)
  | now =>
      obtain ⟨-, rfl⟩ := Prod.mk.inj answered
      exact ⟨fun _ _ => .inl, fun _ _ => .inl⟩

/-- What a job may write is built for functions that are stored. -/
theorem WellBuilt.step {before after : Cluster} {call : ApiCall} {response : call.Response}
    {circumstance : ApiCall.Circumstance} {cfg : Option Settings} {history : ApiHistory}
    (built : WellBuilt mayUse before)
    (executed : call.execute circumstance before = some (response, after))
    (keeps : Keeps True before.functions after.functions)
    (builds : Builds cfg history call) (uses : ∀ settings, cfg = some settings → mayUse settings)
    (stored : ∀ function, WasRead history function →
      ∃ now, before.functions.find? now.key = some now ∧ SameFunction function now) :
    WellBuilt mayUse after := by
  obtain ⟨deployments, services⟩ := found_of_answer executed
  -- a function that was read is still stored after the call, as the same function
  have known : ∀ function, WasRead history function →
      ∃ now, after.functions.find? now.key = some now ∧ SameFunction function now := by
    intro function read
    obtain ⟨middle, found, toMiddle⟩ := stored function read
    obtain ⟨now, foundNow, toNow⟩ := keeps.sameFunction found
    exact ⟨now, foundNow, toMiddle.trans toNow⟩
  constructor
  · intro key object found
    rcases deployments key object found with old | rfl | ⟨written, rfl, rfl, contentEq⟩
    · obtain ⟨function, settings, functionFound, may, rfl, contentEq⟩ :=
        built.deployments key object old
      obtain ⟨now, foundNow, same⟩ := keeps.sameFunction functionFound
      exact ⟨now, settings, foundNow, may, same.deploymentKey_eq.symm,
        contentEq.trans (same.builtDeployment_eq settings).symm⟩
    · obtain ⟨function, settings, read, isSettings, rfl, contentEq⟩ := builds
      obtain ⟨now, foundNow, same⟩ := known function read
      exact ⟨now, settings, foundNow, uses settings isSettings, same.deploymentKey_eq.symm,
        contentEq.trans (same.builtDeployment_eq settings).symm⟩
    · obtain ⟨function, settings, read, isSettings, keyEq, writtenEq⟩ := builds
      obtain ⟨now, foundNow, same⟩ := known function read
      exact ⟨now, settings, foundNow, uses settings isSettings,
        keyEq.trans same.deploymentKey_eq.symm,
        contentEq.symm.trans (writtenEq.trans (same.builtDeployment_eq settings).symm)⟩
  · intro key object found
    rcases services key object found with old | rfl | ⟨written, rfl, rfl, contentEq⟩
    · obtain ⟨function, clusterIP, clusterIPs, functionFound, rfl, contentEq⟩ :=
        built.services key object old
      obtain ⟨now, foundNow, same⟩ := keeps.sameFunction functionFound
      exact ⟨now, clusterIP, clusterIPs, foundNow, same.serviceKey_eq.symm,
        contentEq.trans (same.builtService_eq clusterIP clusterIPs).symm⟩
    · obtain ⟨function, clusterIP, clusterIPs, read, rfl, contentEq⟩ := builds
      obtain ⟨now, foundNow, same⟩ := known function read
      exact ⟨now, clusterIP, clusterIPs, foundNow, same.serviceKey_eq.symm,
        contentEq.trans (same.builtService_eq clusterIP clusterIPs).symm⟩
    · obtain ⟨function, clusterIP, clusterIPs, read, keyEq, writtenEq⟩ := builds
      obtain ⟨now, foundNow, same⟩ := known function read
      exact ⟨now, clusterIP, clusterIPs, foundNow, keyEq.trans same.serviceKey_eq.symm,
        contentEq.symm.trans (writtenEq.trans (same.builtService_eq clusterIP clusterIPs).symm)⟩

end Steps

/-! ### Runs under stale reads -/

/-- Whatever a read can see is a function that is still stored. -/
def KnowsIdentities (history : ClusterHistory) : Prop :=
  ∀ past ∈ history.versions, Keeps True past.functions history.current.functions

/-- The functions that were read in these events are still stored. -/
def ReadsStored {Pid : Type} (events : List (StaleEvent Pid))
    (functions : Store NamespacedName FunctionSpec) : Prop :=
  ∀ event ∈ events, ∀ key function,
    event.answered = ⟨.functions (.get key), Except.ok function⟩ →
    ∃ now, functions.find? now.key = some now ∧ SameFunction function now

section Runs

variable {Pid : Type} [DecidableEq Pid] {mayUse : Settings → Prop}
variable {history : ClusterHistory} {jobs : Pid → Job} {events : List (StaleEvent Pid)}
variable {last : Processes Pid ApiCall ApiCall.Response JobOutcome ClusterHistory}

theorem mem_versions_of_executeStale {call : ApiCall} {circumstance : StaleCircumstance}
    {before after : ClusterHistory} {response : call.Response}
    (executed : call.executeStale circumstance before = some (response, after)) {past : Cluster}
    (member : past ∈ after.versions) : past = after.current ∨ past ∈ before.versions := by
  unfold ApiCall.executeStale at executed
  split at executed
  · obtain ⟨-, rfl⟩ := Prod.mk.inj (Option.some.inj executed)
    exact .inr member
  · obtain ⟨-, rfl⟩ := Prod.mk.inj (Option.some.inj executed)
    exact List.mem_cons.mp member

theorem Keeps.always {mayActivate : Prop} {before after : Store NamespacedName FunctionSpec}
    (keeps : Keeps mayActivate before after) : Keeps True before after := by
  intro key old found
  obtain ⟨new, newFound, identity, -⟩ := keeps key old found
  exact ⟨new, newFound, identity, fun _ _ => trivial⟩

/-- What holds after every event of a run. -/
structure Sound (mayUse : Settings → Prop) (events : List (StaleEvent Pid))
    (history : ClusterHistory) : Prop where
  identities : KnowsIdentities history
  reads : ReadsStored events history.current.functions
  built : WellBuilt mayUse history.current

/-- One event of a run keeps the clusters well built. -/
theorem Sound.step {early late : List (StaleEvent Pid)} {event : StaleEvent Pid}
    (ran : Processes.Ran ApiCall.executeStale (startStale history jobs)
      (early ++ event :: late) last)
    (uses : ∀ pid settings, (jobs pid).settings = some settings → mayUse settings)
    (sound : Sound mayUse early event.before) : Sound mayUse (early ++ [event]) event.after := by
  have keeps := (keeps_of_ran ran).always
  have builds := ran.assertion (jobs event.pid).program_builds
  obtain ⟨circumstance, executed⟩ := ran.executed List.mem_append_cons_self
  have identities : KnowsIdentities event.after := by
    intro past member
    rcases mem_versions_of_executeStale executed member with rfl | old
    · exact .refl _ _
    · exact (sound.identities past old).trans keeps
  have reads : ReadsStored (early ++ [event]) event.after.current.functions := by
    intro reading member key function answeredEq
    obtain ⟨now, found, same⟩ : ∃ now, event.before.current.functions.find? now.key = some now ∧
        SameFunction function now := by
      rcases List.mem_append.mp member with old | new
      · exact sound.reads reading old key function answeredEq
      · obtain rfl := List.mem_singleton.mp new
        obtain ⟨_, executedRead⟩ := ran.executed_of_answered_eq List.mem_append_cons_self answeredEq
        rcases executeStale_cases executedRead with ⟨wasRead, -⟩ | ⟨notRead, -⟩
        · exact (sound.identities _ (reading.before.seen_mem _)).sameFunction
            (found_of_readStale wasRead)
        · cases notRead
    obtain ⟨later, foundLater, sameLater⟩ := keeps.sameFunction found
    exact ⟨later, foundLater, same.trans sameLater⟩
  refine ⟨identities, reads, ?_⟩
  rcases executeStale_cases executed with ⟨-, afterEq⟩ | ⟨-, answered⟩
  · rw [afterEq]
    exact sound.built
  · apply sound.built.step answered keeps builds (uses event.pid)
    rintro function ⟨key, member⟩
    obtain ⟨reading, readingMember, -, answeredEq⟩ := Event.mem_own.mp member
    exact sound.reads reading readingMember key function answeredEq

theorem sound_run (ran : Processes.Ran ApiCall.executeStale (startStale history jobs) events last)
    (uses : ∀ pid settings, (jobs pid).settings = some settings → mayUse settings)
    (identities : KnowsIdentities history) (built : WellBuilt mayUse history.current) :
    Sound mayUse events last.shared := by
  rw [ran.lastShared]
  apply ran.linked.run_induction
  · refine ⟨identities, ?_, built⟩
    intro event member
    cases member
  · rintro early event late rfl sound
    exact sound.step ran uses

theorem wellBuilt_after {early late : List (StaleEvent Pid)} {event : StaleEvent Pid}
    (ran : Processes.Ran ApiCall.executeStale (startStale history jobs)
      (early ++ event :: late) last)
    (uses : ∀ pid settings, (jobs pid).settings = some settings → mayUse settings)
    (identities : KnowsIdentities history) (built : WellBuilt mayUse history.current) :
    WellBuilt mayUse event.after.current := by
  rw [List.append_cons] at ran
  obtain ⟨middle, ranEarly, -⟩ := Processes.ran_append.mp ran
  have sound := sound_run ranEarly uses identities built
  rw [ranEarly.lastShared, Event.lastShared_append] at sound
  exact sound.built

/-- In every run under stale reads, every Deployment and every Service is, at
every moment, what the controller makes of a function that is stored then. -/
theorem runtimes_wellBuilt (history : ClusterHistory) (jobs : Pid → Job)
    (schedule : List (Pid × StaleCircumstance)) (mayUse : Settings → Prop)
    (uses : ∀ pid settings, (jobs pid).settings = some settings → mayUse settings)
    (identities : KnowsIdentities history) (built : WellBuilt mayUse history.current) :
    Event.AtEvery (fun _ event => WellBuilt mayUse event.after.current)
      (staleEventsOf history jobs schedule) := by
  intro early event late split
  have ran := @Processes.ran_run _ _ _ _ _ _ _ ApiCall.executeStale (startStale history jobs) schedule
  rw [show ((startStale history jobs).run ApiCall.executeStale schedule).1 =
    early ++ event :: late from split] at ran
  exact wellBuilt_after ran uses identities built

/-- An active function that has no runtime yet. -/
def unbuiltCluster : Cluster where
  functions := (Store.empty.create ⟨"default", "one"⟩
    { isActive := true
      isAsync := false
      deProvisionTime := .unset
      language := "go"
      name := "one"
      method := ""
      project := "projone"
      gitCreds := "" }).2
  deployments := Store.empty
  services := Store.empty
  clock := 0

def unbuiltHistory : ClusterHistory where
  current := unbuiltCluster
  earlier := []
  evolves := by simp

theorem unbuilt_knowsIdentities : KnowsIdentities unbuiltHistory := by
  intro past member
  obtain rfl := List.mem_singleton.mp member
  exact .refl _ _

theorem unbuilt_wellBuilt : WellBuilt (· = defaultSettings) unbuiltHistory.current := by
  constructor
  · intro key object found
    cases found
  · intro key object found
    cases found

def reconcileOne (_ : Nat) : Job :=
  .runTask (.reconcile defaultSettings ⟨"default", "one"⟩)

theorem reconcileOne_settings (pid : Nat) (settings : Settings)
    (uses : (reconcileOne pid).settings = some settings) : settings = defaultSettings :=
  (Option.some.inj uses).symm

/-- A reconciliation that creates the runtime, and one that updates it. -/
def twoReconciles : List (Nat × StaleCircumstance) :=
  (List.replicate 7 0 ++ List.replicate 7 1).map fun pid =>
    (pid, { unavailable := false, elapsed := 0, version := 0, listed := [] })

theorem runtimes_wellBuilt_twoReconciles :
    (staleEventsOf unbuiltHistory reconcileOne twoReconciles).length = 14 ∧
      Event.AtEvery (fun _ event => WellBuilt (· = defaultSettings) event.after.current)
        (staleEventsOf unbuiltHistory reconcileOne twoReconciles) :=
  ⟨rfl, runtimes_wellBuilt unbuiltHistory reconcileOne twoReconciles _ reconcileOne_settings
    unbuilt_knowsIdentities unbuilt_wellBuilt⟩

/-- Functions whose runtimes share a name have the same labels. -/
def NamesApart (functions : Store NamespacedName FunctionSpec) : Prop :=
  ∀ first second, functions.find? first.key = some first →
    functions.find? second.key = some second →
    (deploymentKey first = deploymentKey second ∨ serviceKey first = serviceKey second) →
    runtimeLabels first = runtimeLabels second

/-- What is stored under one name at two moments selects the same pods, and the
pods have the same labels. -/
structure SameSelectors (before after : Cluster) : Prop where
  deployments : ∀ key old new, before.deployments.find? key = some old →
    after.deployments.find? key = some new →
    new.content.matchLabels = old.content.matchLabels ∧
      new.content.podLabels = old.content.podLabels
  services : ∀ key old new, before.services.find? key = some old →
    after.services.find? key = some new → new.content.selector = old.content.selector

theorem WellBuilt.sameSelectors {before after : Cluster} (built : WellBuilt mayUse before)
    (builtAfter : WellBuilt mayUse after) (keeps : Keeps True before.functions after.functions)
    (apart : NamesApart after.functions) : SameSelectors before after := by
  constructor
  · intro key old new oldFound newFound
    obtain ⟨first, _, firstFound, -, rfl, oldEq⟩ := built.deployments key old oldFound
    obtain ⟨second, _, secondFound, -, keyEq, newEq⟩ := builtAfter.deployments _ new newFound
    obtain ⟨now, nowFound, same⟩ := keeps.sameFunction firstFound
    have labels : runtimeLabels second = runtimeLabels first := by
      rw [← same.runtimeLabels_eq]
      apply apart second now secondFound nowFound
      exact .inl (keyEq.symm.trans same.deploymentKey_eq.symm)
    rw [oldEq, newEq]
    exact ⟨labels, labels⟩
  · intro key old new oldFound newFound
    obtain ⟨first, _, _, firstFound, rfl, oldEq⟩ := built.services key old oldFound
    obtain ⟨second, _, _, secondFound, keyEq, newEq⟩ := builtAfter.services _ new newFound
    obtain ⟨now, nowFound, same⟩ := keeps.sameFunction firstFound
    rw [oldEq, newEq]
    show runtimeLabels second = runtimeLabels first
    rw [← same.runtimeLabels_eq]
    apply apart second now secondFound nowFound
    exact .inr (keyEq.symm.trans same.serviceKey_eq.symm)

/-- Functions stay between any two events of a run. -/
theorem keeps_between {early between late : List (StaleEvent Pid)} {first second : StaleEvent Pid}
    (ran : Processes.Ran ApiCall.executeStale (startStale history jobs)
      (early ++ first :: (between ++ second :: late)) last) :
    Keeps True first.after.current.functions second.after.current.functions := by
  have each : ∀ event ∈ between ++ [second],
      Keeps True event.before.current.functions event.after.current.functions := by
    intro event member
    obtain ⟨start, rest, split⟩ := List.append_of_mem member
    have whole : early ++ first :: (between ++ second :: late) =
        (early ++ first :: start) ++ event :: (rest ++ late) := by
      rw [List.append_cons between, split]
      simp
    rw [whole] at ran
    exact (keeps_of_ran ran).always
  obtain ⟨-, -, linked⟩ := Event.linked_append.mp ran.linked
  rw [List.append_cons] at linked
  have related := (Event.linked_append.mp linked).1.relates
    (fun before after => Keeps True before.current.functions after.current.functions)
    (fun _ => .refl _ _) .trans each
  rwa [Event.lastShared_append] at related

/-- Between any two moments of a run the selectors stay as they are, if the names
of the runtimes do not collide at the later one. -/
theorem selectors_kept (history : ClusterHistory) (jobs : Pid → Job)
    (schedule : List (Pid × StaleCircumstance)) (mayUse : Settings → Prop)
    (uses : ∀ pid settings, (jobs pid).settings = some settings → mayUse settings)
    (identities : KnowsIdentities history) (built : WellBuilt mayUse history.current)
    (early between late : List (StaleEvent Pid)) (first second : StaleEvent Pid)
    (split : staleEventsOf history jobs schedule =
      early ++ first :: (between ++ second :: late))
    (apart : NamesApart second.after.current.functions) :
    SameSelectors first.after.current second.after.current := by
  have ran := @Processes.ran_run _ _ _ _ _ _ _ ApiCall.executeStale (startStale history jobs) schedule
  rw [show ((startStale history jobs).run ApiCall.executeStale schedule).1 = _ from split] at ran
  have keeps := keeps_between ran
  have whole : early ++ first :: (between ++ second :: late) =
      (early ++ first :: between) ++ second :: late := by
    simp
  have builtFirst := wellBuilt_after ran uses identities built
  rw [whole] at ran
  exact builtFirst.sameSelectors (wellBuilt_after ran uses identities built) keeps apart

theorem twoReconciles_length :
    (staleEventsOf unbuiltHistory reconcileOne twoReconciles).length = 14 := by
  rfl

/-- The event that stores the new Deployment, and the one that updates it. -/
def creating : StaleEvent Nat :=
  (staleEventsOf unbuiltHistory reconcileOne twoReconciles).get
    ⟨2, by rw [twoReconciles_length]; decide⟩

def updating : StaleEvent Nat :=
  (staleEventsOf unbuiltHistory reconcileOne twoReconciles).get
    ⟨9, by rw [twoReconciles_length]; decide⟩

theorem updating_namesApart : NamesApart updating.after.current.functions := by
  have labels : ∀ function ∈ updating.after.current.functions.objects,
      runtimeLabels function = runtimeLabels ⟨⟨"default", "one"⟩, 0,
        ⟨true, false, .unset, "go", "one", "", "projone", ""⟩⟩ := by
    decide +kernel
  intro first second firstFound secondFound _
  rw [labels first (Store.mem_of_find?_eq_some firstFound),
    labels second (Store.mem_of_find?_eq_some secondFound)]

theorem selectors_kept_twoReconciles :
    updating.after.current.deployments.objects.length = 1 ∧
      SameSelectors creating.after.current updating.after.current := by
  apply And.intro (by decide +kernel)
  apply selectors_kept unbuiltHistory reconcileOne twoReconciles _ reconcileOne_settings
    unbuilt_knowsIdentities unbuilt_wellBuilt _ _ _ creating updating _ updating_namesApart
  · exact (staleEventsOf unbuiltHistory reconcileOne twoReconciles).take 2
  · exact ((staleEventsOf unbuiltHistory reconcileOne twoReconciles).drop 3).take 6
  · exact (staleEventsOf unbuiltHistory reconcileOne twoReconciles).drop 10
  · rfl

end Runs

end Operator

end Litefunctions
