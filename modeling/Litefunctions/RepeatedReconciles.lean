import Litefunctions.ReconcileEffects

/-!
# Reconciling again

A reconciliation of an active function writes the Deployment and the Service
that it would write again, so repeating it changes neither.  It also writes a
lease that depends on the clock, to the very object that it watches: repeating
it leaves the function as it is exactly within the same second.
-/

namespace Litefunctions

open Program

/-- An update that changes nothing writes nothing. -/
theorem Store.update_same {Key Content : Type} [DecidableEq Key] [DecidableEq Content]
    {store : Store Key Content} {object stored : Object Key Content}
    (found : store.find? object.key = some stored) (sameVersion : stored.version = object.version)
    (sameContent : stored.content = object.content) : (store.update object).2 = store := by
  unfold update
  rw [found]
  simp only [sameVersion, if_true]
  rw [write, if_pos sameContent]

namespace Operator

/-- The Deployment that a reconciliation of the function writes. -/
def desiredDeployment (cfg : Settings) (function : Function) : Deployment :=
  { newDeployment cfg function with owner := runtimeOwner function }

/-- The Service that a reconciliation of the function writes in place of an
existing one. -/
def desiredService (function : Function) (existing : Service) : Service :=
  { newService function with
    owner := runtimeOwner function
    clusterIP := existing.clusterIP
    clusterIPs := existing.clusterIPs }

/-- The Deployment is stored as desired. -/
def HasDeployment (cfg : Settings) (function : Function) (cluster : Cluster) : Prop :=
  ∃ existing, cluster.deployments.find? (RuntimePart.deployment.keyOf function) = some existing ∧
    existing.content = desiredDeployment cfg function

/-- The Service is stored as desired. -/
def HasService (function : Function) (cluster : Cluster) : Prop :=
  ∃ existing, cluster.services.find? (RuntimePart.service.keyOf function) = some existing ∧
    existing.content = desiredService function existing.content

/-! ### Writing the runtime -/

/-- A call that writes the Deployment, or fails. -/
theorem answer_writeDeployment {cfg : Settings} {function : Function} {call : DeploymentCall}
    {circumstance : ApiCall.Circumstance} {before after : Cluster} {response : call.Response}
    (answered : answerAlone (.deployments call) circumstance before = (response, after))
    (writes : ∀ value stored, call.execute (fun edit => edit.elim) before.deployments = (.ok value, stored) →
      HasDeployment cfg function { before with deployments := stored })
    (keeps : HasDeployment cfg function before →
      (call.execute (fun edit => edit.elim) before.deployments).2 = before.deployments) :
    after.functions = before.functions ∧
      (response.map (fun _ => ()) = .ok () → HasDeployment cfg function after) ∧
      (HasDeployment cfg function before → after = before) := by
  simp only [answerAlone, ApiCall.answer] at answered
  split at answered
  · obtain ⟨rfl, rfl⟩ := Prod.mk.inj answered
    exact ⟨rfl, by rintro ⟨⟩, fun _ => rfl⟩
  · obtain ⟨responseEq, rfl⟩ := Prod.mk.inj answered
    refine ⟨rfl, fun isOk => ?_, fun stored => by rw [keeps stored]⟩
    cases response with
    | error err => cases isOk
    | ok value => exact writes value _ (Prod.ext responseEq rfl)

theorem createOrUpdateDeployment_stores (cfg : Settings) (function : Function) (cluster : Cluster) :
    Ends (fun result after => after.functions = cluster.functions ∧
        (result = .ok () → HasDeployment cfg function after) ∧
        (HasDeployment cfg function cluster → after = cluster))
      (createOrUpdateDeployment cfg function) cluster := by
  unfold createOrUpdateDeployment
  apply And.intro trivial
  intro circumstance
  rcases answered : answerAlone (.deployments
    (.get ⟨function.key.namespace_, getDeploymentName function⟩)) circumstance cluster with ⟨err | existing, after⟩
  · obtain ⟨rfl, -, absent⟩ := answer_getDeployment answered
    cases err with
    | notFound =>
        refine ⟨trivial, fun circumstance => answer_writeDeployment rfl ?_ ?_⟩
        · intro value stored accepted
          obtain ⟨-, contentEq, stores⟩ := Store.create_eq_ok accepted
          exact ⟨value, (stores _).trans (if_pos rfl), contentEq⟩
        · rintro ⟨existing, found, -⟩
          exact absurd ((absent rfl).symm.trans found) (by simp)
    | _ => exact ⟨rfl, nofun, fun _ => rfl⟩
  · obtain ⟨rfl, found, -⟩ := answer_getDeployment answered
    refine ⟨trivial, fun circumstance => answer_writeDeployment rfl ?_ ?_⟩
    · intro value stored accepted
      obtain ⟨-, -, -, contentEq, stores⟩ := Store.update_eq_ok accepted
      exact ⟨value, (stores _).trans (if_pos rfl), contentEq⟩
    · rintro ⟨stored, storedFound, isDesired⟩
      obtain rfl : existing = stored := Option.some.inj ((found existing rfl).symm.trans storedFound)
      exact Store.update_same storedFound rfl isDesired

/-- A call that writes the Service, or fails. -/
theorem answer_writeService {function : Function} {call : ServiceCall}
    {circumstance : ApiCall.Circumstance} {before after : Cluster} {response : call.Response}
    (answered : answerAlone (.services call) circumstance before = (response, after))
    (writes : ∀ value stored, call.execute (fun edit => edit.elim) before.services = (.ok value, stored) →
      HasService function { before with services := stored })
    (keeps : HasService function before →
      (call.execute (fun edit => edit.elim) before.services).2 = before.services) :
    (after.functions = before.functions ∧ after.deployments = before.deployments) ∧
      (response.map (fun _ => ()) = .ok () → HasService function after) ∧
      (HasService function before → after = before) := by
  simp only [answerAlone, ApiCall.answer] at answered
  split at answered
  · obtain ⟨rfl, rfl⟩ := Prod.mk.inj answered
    exact ⟨⟨rfl, rfl⟩, by rintro ⟨⟩, fun _ => rfl⟩
  · obtain ⟨responseEq, rfl⟩ := Prod.mk.inj answered
    refine ⟨⟨rfl, rfl⟩, fun isOk => ?_, fun stored => by rw [keeps stored]⟩
    cases response with
    | error err => cases isOk
    | ok value => exact writes value _ (Prod.ext responseEq rfl)

theorem createOrUpdateService_stores (function : Function) (cluster : Cluster) :
    Ends (fun result after =>
        (after.functions = cluster.functions ∧ after.deployments = cluster.deployments) ∧
        (result = .ok () → HasService function after) ∧
        (HasService function cluster → after = cluster))
      (createOrUpdateService function) cluster := by
  unfold createOrUpdateService
  apply And.intro trivial
  intro circumstance
  rcases answered : answerAlone (.services
    (.get ⟨function.key.namespace_, getServiceName function⟩)) circumstance cluster with ⟨err | existing, after⟩
  · obtain ⟨rfl, -, absent⟩ := answer_getService answered
    cases err with
    | notFound =>
        refine ⟨trivial, fun circumstance => answer_writeService rfl ?_ ?_⟩
        · intro value stored accepted
          obtain ⟨-, contentEq, stores⟩ := Store.create_eq_ok accepted
          exact ⟨value, (stores _).trans (if_pos rfl), by rw [contentEq]; rfl⟩
        · rintro ⟨existing, found, -⟩
          exact absurd ((absent rfl).symm.trans found) (by simp)
    | _ => exact ⟨⟨rfl, rfl⟩, nofun, fun _ => rfl⟩
  · obtain ⟨rfl, found, -⟩ := answer_getService answered
    refine ⟨trivial, fun circumstance => answer_writeService rfl ?_ ?_⟩
    · intro value stored accepted
      obtain ⟨-, -, -, contentEq, stores⟩ := Store.update_eq_ok accepted
      exact ⟨value, (stores _).trans (if_pos rfl), by rw [contentEq]; rfl⟩
    · rintro ⟨stored, storedFound, isDesired⟩
      obtain rfl : existing = stored := Option.some.inj ((found existing rfl).symm.trans storedFound)
      exact Store.update_same storedFound rfl isDesired

/-! ### The renewal of the lease -/

/-- A reconciliation up to its last call: its result, or the function with a
renewed lease that is left to be stored. -/
def renewal (cfg : Settings) (key : NamespacedName) :
    ApiProgram (Except (Except StoreError Unit) Function) := do
  match ← Api.getFunction key with
  | .error err => return .error (ignoreNotFound err)
  | .ok function =>
      if !function.content.isActive then
        return .error (← deleteRuntime function)
      else
        match ← createOrUpdateDeployment cfg function with
        | .error err => return .error (.error err)
        | .ok () =>
            match ← createOrUpdateService function with
            | .error err => return .error (.error err)
            | .ok () => return .ok (function.withLease ((← Api.now) + cfg.keepWarmDuration))

def storeRenewed : Except (Except StoreError Unit) Function → ApiProgram (Except StoreError Unit)
  | .error result => return result
  | .ok function => do return (← Api.updateFunction function).map fun _ => ()

theorem reconcile_eq (cfg : Settings) (key : NamespacedName) :
    reconcile cfg key = renewal cfg key >>= storeRenewed := by
  unfold reconcile renewal
  rw [bind_bind]
  refine congrArg (Api.getFunction key >>= ·) (funext fun response => ?_)
  cases response with
  | error err => rfl
  | ok function =>
      simp only
      split
      · rw [bind_bind]
        exact (bind_done _).symm
      · rw [bind_bind]
        refine congrArg (createOrUpdateDeployment cfg function >>= ·) (funext fun deployed => ?_)
        cases deployed with
        | error err => rfl
        | ok _ =>
            simp only
            rw [bind_bind]
            refine congrArg (createOrUpdateService function >>= ·) (funext fun served => ?_)
            cases served <;> rfl

/-- The call writes no Function object. -/
def LeavesFunctions : ApiCall → Prop
  | .functions (.update _) => False
  | _ => True

theorem createOrUpdateDeployment_leavesFunctions (cfg : Settings) (function : Function) :
    (createOrUpdateDeployment cfg function).Along (fun _ request => LeavesFunctions request)
      (fun _ _ => True) [] := by
  apply And.intro trivial
  intro response
  rcases response with (_ | _ | _ | _) | _
  all_goals first | trivial | exact ⟨trivial, fun _ => trivial⟩

theorem createOrUpdateService_leavesFunctions (function : Function) :
    (createOrUpdateService function).Along (fun _ request => LeavesFunctions request)
      (fun _ _ => True) [] := by
  apply And.intro trivial
  intro response
  rcases response with (_ | _ | _ | _) | _
  all_goals first | trivial | exact ⟨trivial, fun _ => trivial⟩

/-- The function as it is stored with another lease. -/
def withRenewedLease (function : Function) (version : Nat) (time : Int) : Function :=
  ⟨function.key, version, (function.withLease time).content⟩

/-- An active function that is stored, with its runtime as a reconciliation
writes it. -/
structure Provisioned (cfg : Settings) (function : Function) (cluster : Cluster) : Prop where
  active : function.content.isActive = true
  stored : cluster.functions.find? function.key = some function
  deployment : HasDeployment cfg function cluster
  service : HasService function cluster

/-- The function and its runtime are stored as before. -/
structure SameObjects (function : Function) (before after : Cluster) : Prop where
  stored : after.functions.find? function.key = before.functions.find? function.key
  deployment : after.deployments.find? (RuntimePart.deployment.keyOf function) =
    before.deployments.find? (RuntimePart.deployment.keyOf function)
  service : after.services.find? (RuntimePart.service.keyOf function) =
    before.services.find? (RuntimePart.service.keyOf function)

section Repeated

variable {cfg : Settings} {function : Function} {cluster after : Cluster}

theorem Provisioned.of_same (provisioned : Provisioned cfg function cluster)
    (same : SameObjects function cluster after) : Provisioned cfg function after where
  active := provisioned.active
  stored := same.stored.trans provisioned.stored
  deployment := by
    obtain ⟨existing, found, isDesired⟩ := provisioned.deployment
    exact ⟨existing, same.deployment.trans found, isDesired⟩
  service := by
    obtain ⟨existing, found, isDesired⟩ := provisioned.service
    exact ⟨existing, same.service.trans found, isDesired⟩

/-- Up to the last call, a reconciliation of a provisioned function changes
nothing, whatever fails. -/
theorem renewal_ends (provisioned : Provisioned cfg function cluster) :
    (renewal cfg function.key).Ensures answerAlone (fun request _ => LeavesFunctions request)
      (fun result after => (∃ clock, after = { cluster with clock }) ∧
        ∀ renewed, result = .ok renewed →
          renewed = function.withLease (after.clock + cfg.keepWarmDuration))
      cluster := by
  unfold renewal
  apply ensures_bind.mpr
  apply And.intro trivial
  intro circumstance
  rcases answered : answerAlone (.functions (.get function.key)) circumstance cluster with
    ⟨err | read, after⟩
  · obtain ⟨rfl, -, -⟩ := answer_getFunction answered
    exact ⟨⟨_, rfl⟩, by rintro _ ⟨⟩⟩
  · obtain ⟨rfl, readFound, -⟩ := answer_getFunction answered
    obtain rfl : function = read :=
      Option.some.inj (provisioned.stored.symm.trans (readFound read rfl))
    simp only [ensures_done, provisioned.active, Bool.not_true, Bool.false_eq_true, if_false]
    have deploys := (createOrUpdateDeployment_stores cfg function after).and
      (createOrUpdateDeployment_leavesFunctions cfg function).ensures_calls
    refine ensures_bind.mpr (deploys.imp (fun _ _ allowed => allowed.2) ?_)
    rintro deployed middle ⟨⟨-, -, keeps⟩, -⟩
    obtain rfl := keeps provisioned.deployment
    cases deployed with
    | error err => exact ⟨⟨_, rfl⟩, by rintro _ ⟨⟩⟩
    | ok _ =>
        have serves := (createOrUpdateService_stores function middle).and
          (createOrUpdateService_leavesFunctions function).ensures_calls
        refine ensures_bind.mpr (serves.imp (fun _ _ allowed => allowed.2) ?_)
        rintro served last ⟨⟨-, -, keepsService⟩, -⟩
        obtain rfl := keepsService provisioned.service
        cases served with
        | error err => exact ⟨⟨_, rfl⟩, by rintro _ ⟨⟩⟩
        | ok _ =>
            refine ⟨trivial, fun reading => ⟨⟨_, rfl⟩, fun renewed isRenewed => ?_⟩⟩
            exact (Except.ok.inj isRenewed).symm

/-- A reconciliation that completes leaves an active function provisioned. -/
theorem reconcile_provisions (stored : cluster.functions.find? function.key = some function)
    (active : function.content.isActive = true) :
    Ends (fun result after => result = .ok () →
        ∃ version time, Provisioned cfg (withRenewedLease function version time) after)
      (reconcile cfg function.key) cluster := by
  unfold reconcile
  apply ensures_bind.mpr
  apply And.intro trivial
  intro circumstance
  rcases answered : answerAlone (.functions (.get function.key)) circumstance cluster with
    ⟨err | read, after⟩
  · obtain ⟨rfl, -, absent⟩ := answer_getFunction answered
    cases err with
    | notFound => exact absurd ((absent rfl).symm.trans stored) (by simp)
    | _ => rintro ⟨⟩
  · obtain ⟨rfl, readFound, -⟩ := answer_getFunction answered
    obtain rfl : function = read := Option.some.inj (stored.symm.trans (readFound read rfl))
    simp only [ensures_done, active, Bool.not_true, Bool.false_eq_true, if_false]
    refine ensures_bind.mpr ((createOrUpdateDeployment_stores cfg function after).imp (fun _ _ => id) ?_)
    rintro (err | _) deployed ⟨sameFunctions, hasDeployment, -⟩
    · rintro ⟨⟩
    · refine ensures_bind.mpr ((createOrUpdateService_stores function deployed).imp (fun _ _ => id) ?_)
      rintro (err | _) served ⟨⟨sameFunctionsToo, sameDeployments⟩, hasService, -⟩
      · rintro ⟨⟩
      · refine ⟨trivial, fun reading => ⟨trivial, fun circumstance => ?_⟩⟩
        rcases updated : answerAlone (.functions (.update (function.withLease
          ((answerAlone .now reading served).1 + cfg.keepWarmDuration)))) circumstance
          (answerAlone .now reading served).2 with ⟨response, last⟩
        intro isOk
        obtain ⟨keptDeployments, keptServices, -, accepted⟩ := answer_functions updated
        cases response with
        | error err => cases isOk
        | ok written =>
            obtain ⟨old, -, -, contentEq, stores⟩ := Store.update_eq_ok (accepted written rfl)
            have writtenStored : last.functions.find? function.key = some written :=
              (stores _).trans (if_pos rfl)
            have writtenKey := Store.key_of_find?_eq_some writtenStored
            obtain ⟨_, version, _⟩ := written
            cases contentEq
            cases writtenKey
            refine ⟨version, _, active, writtenStored, ?_, ?_⟩
            · obtain ⟨existing, found, isDesired⟩ := hasDeployment rfl
              refine ⟨existing, ?_, isDesired⟩
              rw [keptDeployments]
              exact sameDeployments ▸ found
            · obtain ⟨existing, found, isDesired⟩ := hasService rfl
              refine ⟨existing, ?_, isDesired⟩
              rw [keptServices]
              exact found

/-- The time at which an answered call stores a Function object. -/
def storingTime : ApiCall × ApiCall.Circumstance × Cluster → Option Int
  | (.functions (.update _), circumstance, cluster) =>
      if circumstance.unavailable then none else some cluster.clock
  | _ => none

/-- The cluster after a reconciliation in these circumstances. -/
def reconciled (cfg : Settings) (key : NamespacedName) (circumstances : Nat → ApiCall.Circumstance)
    (cluster : Cluster) : Cluster :=
  ((reconcile cfg key).runAlone answerAlone circumstances cluster).2

/-- The times at which a reconciliation stores the function. -/
def renewalTimes (cfg : Settings) (key : NamespacedName)
    (circumstances : Nat → ApiCall.Circumstance) (cluster : Cluster) : List Int :=
  ((reconcile cfg key).stepsAlone answerAlone circumstances cluster).filterMap storingTime

/-- The last call of a reconciliation leaves a provisioned function as it is
exactly when the lease that it writes is the stored one. -/
theorem sameObjects_update_iff (stored : cluster.functions.find? function.key = some function)
    (time clock : Int) :
    SameObjects function cluster
        { cluster with clock, functions := (cluster.functions.update (function.withLease time)).2 } ↔
      function.content.deProvisionTime = .format time := by
  constructor
  · intro same
    have accepts : ∃ written, (cluster.functions.update (function.withLease time)).1 = .ok written :=
      Store.isOk_update_iff.mpr ⟨function, stored, rfl⟩
    obtain ⟨written, accepted⟩ := accepts
    obtain ⟨-, -, -, contentEq, stores⟩ := Store.update_eq_ok (Prod.ext accepted rfl)
    have writtenStored := (stores function.key).trans (if_pos rfl)
    have kept := same.stored.trans stored
    obtain rfl := Option.some.inj (writtenStored.symm.trans kept)
    rw [contentEq]
    rfl
  · intro sameLease
    have sameContent : function.content = (function.withLease time).content := by
      unfold Function.withLease
      rw [← sameLease]
    have kept : (cluster.functions.update (function.withLease time)).2 = cluster.functions :=
      Store.update_same stored rfl sameContent
    exact ⟨by rw [kept], rfl, rfl⟩

theorem sameObjects_reconciled_iff (provisioned : Provisioned cfg function cluster)
    (circumstances : Nat → ApiCall.Circumstance) :
    SameObjects function cluster (reconciled cfg function.key circumstances cluster) ↔
      ∀ time ∈ renewalTimes cfg function.key circumstances cluster,
        function.content.deProvisionTime = .format (time + cfg.keepWarmDuration) := by
  have ends := (renewal_ends provisioned).ends circumstances
  have steps := (renewal_ends provisioned).steps circumstances
  have quiet : ((renewal cfg function.key).stepsAlone answerAlone circumstances
      cluster).filterMap storingTime = [] := by
    rw [List.filterMap_eq_nil_iff]
    rintro ⟨call, circumstance, state⟩ member
    have leaves := steps _ member
    unfold storingTime
    split
    · next same =>
        rw [show call = _ from congrArg Prod.fst same] at leaves
        exact leaves.elim
    · rfl
  unfold reconciled renewalTimes
  rw [reconcile_eq, runAlone_bind, stepsAlone_bind, List.filterMap_append, quiet, List.nil_append]
  obtain ⟨⟨clock, middleEq⟩, isRenewed⟩ := ends
  rw [middleEq] at isRenewed ⊢
  cases result : ((renewal cfg function.key).runAlone answerAlone circumstances cluster).1 with
  | error outcome => exact iff_of_true ⟨rfl, rfl, rfl⟩ (by rintro _ ⟨⟩)
  | ok renewed =>
      rw [isRenewed renewed result]
      generalize (renewal cfg function.key).choicesAfter answerAlone circumstances cluster = choices
      show SameObjects function cluster (answerAlone (.functions (.update _)) (choices 0) _).2 ↔
        ∀ time ∈ [((ApiCall.functions (.update _), choices 0, _) :
          ApiCall × ApiCall.Circumstance × Cluster)].filterMap storingTime, _
      cases unavailable : (choices 0).unavailable with
      | true =>
          simp only [answerAlone, ApiCall.answer, storingTime, unavailable, List.filterMap_cons,
            if_true, List.filterMap_nil]
          exact iff_of_true ⟨rfl, rfl, rfl⟩ (by rintro _ ⟨⟩)
      | false =>
          simp only [answerAlone, ApiCall.answer, storingTime, unavailable, List.filterMap_cons,
            Bool.false_eq_true, if_false, List.filterMap_nil, List.mem_singleton, forall_eq]
          exact sameObjects_update_iff provisioned.stored _ clock

/-- Reconciliations of one function, one after another with no other write in
between: when each of them stores the function, and the cluster after it. -/
def furtherReconciles (cfg : Settings) (key : NamespacedName) :
    List (Nat → ApiCall.Circumstance) → Cluster → List (List Int × Cluster)
  | [], _ => []
  | circumstances :: again, cluster =>
      (renewalTimes cfg key circumstances cluster, reconciled cfg key circumstances cluster) ::
        furtherReconciles cfg key again (reconciled cfg key circumstances cluster)

theorem SameObjects.trans_iff {last : Cluster} (same : SameObjects function cluster after) :
    SameObjects function after last ↔ SameObjects function cluster last :=
  ⟨fun later => ⟨later.stored.trans same.stored, later.deployment.trans same.deployment,
      later.service.trans same.service⟩,
    fun later => ⟨later.stored.trans same.stored.symm, later.deployment.trans same.deployment.symm,
      later.service.trans same.service.symm⟩⟩

theorem sameObjects_further_iff (provisioned : Provisioned cfg function cluster)
    (again : List (Nat → ApiCall.Circumstance)) :
    (∀ further ∈ furtherReconciles cfg function.key again cluster,
        SameObjects function cluster further.2) ↔
      ∀ further ∈ furtherReconciles cfg function.key again cluster, ∀ time ∈ further.1,
        function.content.deProvisionTime = .format (time + cfg.keepWarmDuration) := by
  induction again generalizing cluster with
  | nil => exact iff_of_true nofun nofun
  | cons circumstances again ih =>
      simp only [furtherReconciles, List.forall_mem_cons]
      rw [← sameObjects_reconciled_iff provisioned circumstances]
      apply and_congr_right
      intro same
      rw [← ih (provisioned.of_same same)]
      exact forall₂_congr fun further _ => same.trans_iff.symm

end Repeated

/-- Whatever fails, reconciliations that follow a completed one of an active
function leave the function and its runtime as they are exactly when each
lease that they store ends in the same second as the stored one. -/
theorem reconciled_again_iff (cfg : Settings) {function : Function} {cluster : Cluster}
    (stored : cluster.functions.find? function.key = some function)
    (active : function.content.isActive = true) {circumstances : Nat → ApiCall.Circumstance}
    (completed :
      ((reconcile cfg function.key).runAlone answerAlone circumstances cluster).1 = .ok ())
    (again : List (Nat → ApiCall.Circumstance)) :
    (∀ further ∈ furtherReconciles cfg function.key again
        (reconciled cfg function.key circumstances cluster),
      SameObjects function (reconciled cfg function.key circumstances cluster) further.2) ↔
    ∀ further ∈ furtherReconciles cfg function.key again
        (reconciled cfg function.key circumstances cluster),
      ∀ time ∈ further.1, ∃ before ∈
        (reconciled cfg function.key circumstances cluster).functions.find? function.key,
          before.content.deProvisionTime = .format (time + cfg.keepWarmDuration) := by
  obtain ⟨version, time, provisioned⟩ := (reconcile_provisions stored active).ends circumstances completed
  have storedNow : (reconciled cfg function.key circumstances cluster).functions.find? function.key =
      some (withRenewedLease function version time) := provisioned.stored
  have sameKeys : ∀ before after : Cluster, SameObjects function before after ↔
      SameObjects (withRenewedLease function version time) before after :=
    fun before after => ⟨fun same => ⟨same.stored, same.deployment, same.service⟩,
      fun same => ⟨same.stored, same.deployment, same.service⟩⟩
  simp only [sameKeys, storedNow, Option.mem_some_iff, exists_eq_left']
  exact sameObjects_further_iff provisioned again

/-! ### A lease that moves on its own -/

/-- A cluster with one active function without a runtime. -/
def activeCluster : Cluster where
  functions := (Store.empty.create ⟨"default", "one"⟩
    { isActive := true
      isAsync := false
      deProvisionTime := .rfc3339 300
      language := "go"
      name := "one"
      method := ""
      project := "projone"
      gitCreds := "" }).2
  deployments := Store.empty
  services := Store.empty
  clock := 0

/-- Every call is answered, and the clock is read this long after it was read last. -/
def allAnswered (elapsed : Nat) : Nat → ApiCall.Circumstance :=
  fun _ => ⟨false, elapsed⟩

/-- A second later, the same reconciliation writes another lease. -/
theorem reconciled_again_renews :
    ¬ ∀ (cfg : Settings) (function : Function) (cluster : Cluster)
        (circumstances again : Nat → ApiCall.Circumstance),
      cluster.functions.find? function.key = some function → function.content.isActive = true →
      ((reconcile cfg function.key).runAlone answerAlone circumstances cluster).1 = .ok () →
        SameObjects function (reconciled cfg function.key circumstances cluster)
          (reconciled cfg function.key again (reconciled cfg function.key circumstances cluster)) := by
  intro always
  have same := always defaultSettings _ activeCluster (allAnswered 0) (allAnswered 1000000000)
    (Store.find?_key_of_mem List.mem_cons_self) rfl (by decide +kernel)
  have moved : (reconciled defaultSettings ⟨"default", "one"⟩ (allAnswered 1000000000)
      (reconciled defaultSettings ⟨"default", "one"⟩ (allAnswered 0) activeCluster)).functions.find?
        ⟨"default", "one"⟩ ≠
      (reconciled defaultSettings ⟨"default", "one"⟩ (allAnswered 0) activeCluster).functions.find?
        ⟨"default", "one"⟩ := by
    decide +kernel
  exact moved same.stored

/-- The function of the cluster. -/
def activeFunction : Function :=
  ⟨⟨"default", "one"⟩, 1, ⟨true, false, .rfc3339 300, "go", "one", "", "projone", ""⟩⟩

/-- Within the same second nothing changes. -/
theorem reconciled_again_iff_one :
    (furtherReconciles defaultSettings activeFunction.key [allAnswered 1000, allAnswered 0]
        (reconciled defaultSettings activeFunction.key (allAnswered 0) activeCluster)).Forall
      fun further => SameObjects activeFunction
        (reconciled defaultSettings activeFunction.key (allAnswered 0) activeCluster) further.2 := by
  have stored : activeCluster.functions.find? activeFunction.key = some activeFunction :=
    Store.find?_key_of_mem List.mem_cons_self
  apply List.forall_iff_forall_mem.mpr
  apply (reconciled_again_iff defaultSettings stored rfl (by decide +kernel) _).mpr
  decide +kernel

end Operator

end Litefunctions
