import Litefunctions.FunctionController
import Litefunctions.ProgramSpecs

/-!
# What an attempt to reconcile changes

`Reconcile` may stop at any of its calls.  For an active function an attempt
only adds parts of its runtime, for an inactive one it only removes them, and
only where no other active function shares the runtime.  The functions
themselves keep everything but leases and versions.
-/

namespace Litefunctions

open Program

/-! ### Presence in a store -/

namespace Store

variable {Key Content : Type} [DecidableEq Key]

/-- There is an object under the key. -/
def Has (store : Store Key Content) (key : Key) : Prop :=
  ∃ object, store.find? key = some object

variable [DecidableEq Content] {store after : Store Key Content} {key other : Key}

omit [DecidableEq Content] in
theorem has_of_stores {written : Object Key Content}
    (stores : ∀ other, after.find? other = if other = key then some written else store.find? other) :
    after.Has other ↔ other = key ∨ store.Has other := by
  unfold Has
  rw [stores]
  by_cases sameKey : other = key <;> simp [sameKey]

omit [DecidableEq Content] in
theorem has_create {content : Content} {written : Object Key Content}
    (accepted : store.create key content = (.ok written, after)) :
    after.Has other ↔ other = key ∨ store.Has other :=
  has_of_stores (create_eq_ok accepted).2.2

theorem has_update {object written : Object Key Content}
    (accepted : store.update object = (.ok written, after)) :
    after.Has other ↔ store.Has other := by
  obtain ⟨stored, found, -, -, stores⟩ := update_eq_ok accepted
  rw [has_of_stores stores, or_iff_right_iff_imp]
  rintro rfl
  exact ⟨stored, found⟩

omit [DecidableEq Content] in
theorem has_delete (accepted : store.delete key = (.ok (), after)) :
    after.Has other ↔ other ≠ key ∧ store.Has other := by
  unfold delete at accepted
  split at accepted
  · simp at accepted
  · obtain rfl := (Prod.mk.inj accepted).2
    unfold Has
    rw [find?_erase]
    by_cases sameKey : other = key <;> simp [sameKey]

end Store

/-- The two objects of a runtime. -/
inductive RuntimePart where
  | deployment | service
  deriving DecidableEq, Repr

/-- The name of a part of the runtime of a function. -/
def RuntimePart.keyOf (function : Function) : RuntimePart → NamespacedName
  | deployment => ⟨function.key.namespace_, getDeploymentName function⟩
  | service => ⟨function.key.namespace_, getServiceName function⟩

/-- The part exists in the cluster. -/
def Cluster.Has (cluster : Cluster) : RuntimePart → NamespacedName → Prop
  | .deployment, key => cluster.deployments.Has key
  | .service, key => cluster.services.Has key

namespace Operator

/-- A cluster answers a call to a client that is alone. -/
def answerAlone (call : ApiCall) (circumstance : ApiCall.Circumstance) (cluster : Cluster) :
    call.Response × Cluster :=
  call.answer circumstance.unavailable circumstance.elapsed cluster

/-- Whatever fails, the program ends as `post` says. -/
abbrev Ends {Result : Type} (post : Result → Cluster → Prop) (program : ApiProgram Result)
    (cluster : Cluster) : Prop :=
  program.Ensures answerAlone (fun _ _ => True) post cluster

section Answers

variable {circumstance : ApiCall.Circumstance} {before after : Cluster}

/-- An accepted call was executed by its store, a failed one changed nothing. -/
theorem answer_functions {call : FunctionCall} {response : call.Response}
    (answered : answerAlone (.functions call) circumstance before = (response, after)) :
    after.deployments = before.deployments ∧ after.services = before.services ∧
      (∀ err, response = .error err → after.functions = before.functions) ∧
      ∀ value, response = .ok value →
        call.execute FunctionPatch.apply before.functions = (.ok value, after.functions) := by
  simp only [answerAlone, ApiCall.answer] at answered
  split at answered
  · obtain ⟨rfl, rfl⟩ := Prod.mk.inj answered
    exact ⟨rfl, rfl, fun _ _ => rfl, fun _ isOk => by cases isOk⟩
  · obtain ⟨responseEq, rfl⟩ := Prod.mk.inj answered
    refine ⟨rfl, rfl, fun err isError => ?_, fun value isOk => ?_⟩
    · exact StoreCall.execute_eq_error (Prod.ext (responseEq.trans isError) rfl)
    · exact Prod.ext (responseEq.trans isOk) rfl

theorem answer_deployments {call : DeploymentCall} {response : call.Response}
    (answered : answerAlone (.deployments call) circumstance before = (response, after)) :
    after.functions = before.functions ∧ after.services = before.services ∧
      (∀ err, response = .error err → after.deployments = before.deployments) ∧
      ∀ value, response = .ok value →
        call.execute (fun edit => edit.elim) before.deployments = (.ok value, after.deployments) := by
  simp only [answerAlone, ApiCall.answer] at answered
  split at answered
  · obtain ⟨rfl, rfl⟩ := Prod.mk.inj answered
    exact ⟨rfl, rfl, fun _ _ => rfl, fun _ isOk => by cases isOk⟩
  · obtain ⟨responseEq, rfl⟩ := Prod.mk.inj answered
    refine ⟨rfl, rfl, fun err isError => ?_, fun value isOk => ?_⟩
    · exact StoreCall.execute_eq_error (Prod.ext (responseEq.trans isError) rfl)
    · exact Prod.ext (responseEq.trans isOk) rfl

theorem answer_services {call : ServiceCall} {response : call.Response}
    (answered : answerAlone (.services call) circumstance before = (response, after)) :
    after.functions = before.functions ∧ after.deployments = before.deployments ∧
      (∀ err, response = .error err → after.services = before.services) ∧
      ∀ value, response = .ok value →
        call.execute (fun edit => edit.elim) before.services = (.ok value, after.services) := by
  simp only [answerAlone, ApiCall.answer] at answered
  split at answered
  · obtain ⟨rfl, rfl⟩ := Prod.mk.inj answered
    exact ⟨rfl, rfl, fun _ _ => rfl, fun _ isOk => by cases isOk⟩
  · obtain ⟨responseEq, rfl⟩ := Prod.mk.inj answered
    refine ⟨rfl, rfl, fun err isError => ?_, fun value isOk => ?_⟩
    · exact StoreCall.execute_eq_error (Prod.ext (responseEq.trans isError) rfl)
    · exact Prod.ext (responseEq.trans isOk) rfl

theorem answer_getFunction {key : NamespacedName} {response : Except StoreError Function}
    (answered : answerAlone (.functions (.get key)) circumstance before = (response, after)) :
    after = before ∧ (∀ function, response = .ok function → before.functions.find? key = some function) ∧
      (response = .error .notFound → before.functions.find? key = none) := by
  simp only [answerAlone, ApiCall.answer, StoreCall.execute] at answered
  split at answered
  · obtain ⟨rfl, rfl⟩ := Prod.mk.inj answered
    simp
  · obtain ⟨rfl, rfl⟩ := Prod.mk.inj answered
    cases found : before.functions.find? key <;> simp

theorem answer_listFunctions {response : Except StoreError (List Function)}
    (answered : answerAlone (.functions .list) circumstance before = (response, after)) :
    after = before ∧ ∀ items, response = .ok items → items = before.functions.objects := by
  simp only [answerAlone, ApiCall.answer, StoreCall.execute] at answered
  split at answered
  · obtain ⟨rfl, rfl⟩ := Prod.mk.inj answered
    simp
  · obtain ⟨rfl, rfl⟩ := Prod.mk.inj answered
    exact ⟨rfl, fun items same => (Except.ok.inj same).symm⟩

theorem answer_getDeployment {key : NamespacedName}
    {response : Except StoreError (Object NamespacedName Deployment)}
    (answered : answerAlone (.deployments (.get key)) circumstance before = (response, after)) :
    after = before ∧
      (∀ existing, response = .ok existing → before.deployments.find? key = some existing) ∧
      (response = .error .notFound → before.deployments.find? key = none) := by
  simp only [answerAlone, ApiCall.answer, StoreCall.execute] at answered
  split at answered
  · obtain ⟨rfl, rfl⟩ := Prod.mk.inj answered
    simp
  · obtain ⟨rfl, rfl⟩ := Prod.mk.inj answered
    cases found : before.deployments.find? key <;> simp

theorem answer_getService {key : NamespacedName}
    {response : Except StoreError (Object NamespacedName Service)}
    (answered : answerAlone (.services (.get key)) circumstance before = (response, after)) :
    after = before ∧
      (∀ existing, response = .ok existing → before.services.find? key = some existing) ∧
      (response = .error .notFound → before.services.find? key = none) := by
  simp only [answerAlone, ApiCall.answer, StoreCall.execute] at answered
  split at answered
  · obtain ⟨rfl, rfl⟩ := Prod.mk.inj answered
    simp
  · obtain ⟨rfl, rfl⟩ := Prod.mk.inj answered
    cases found : before.services.find? key <;> simp

end Answers

/-! ### Removing and adding parts -/

/-- Functions up to their versions and leases. -/
def views (store : Store NamespacedName FunctionSpec) : List (NamespacedName × FunctionSpec) :=
  store.objects.map fun function =>
    (function.key, { function.content with deProvisionTime := .unset })

/-- At most parts of the runtime of the function are gone. -/
structure Removes (function : Function) (before after : Cluster) : Prop where
  functions : after.functions = before.functions
  had : ∀ part key, after.Has part key → before.Has part key
  others : ∀ part key, before.Has part key → key = part.keyOf function ∨ after.Has part key

/-- At most parts of the runtime of the function are new. -/
structure Adds (function : Function) (before after : Cluster) : Prop where
  functions : views after.functions = views before.functions
  keeps : ∀ part key, before.Has part key → after.Has part key
  others : ∀ part key, after.Has part key → key = part.keyOf function ∨ before.Has part key

section Relations

variable {function : Function} {before middle after : Cluster}

theorem Removes.refl (function : Function) (cluster : Cluster) :
    Removes function cluster cluster :=
  ⟨rfl, fun _ _ => id, fun _ _ => .inr⟩

theorem Removes.trans (first : Removes function before middle)
    (second : Removes function middle after) : Removes function before after where
  functions := second.functions.trans first.functions
  had part key has := first.had part key (second.had part key has)
  others part key has := by
    rcases first.others part key has with isOwn | kept
    · exact .inl isOwn
    · exact second.others part key kept

theorem Adds.refl (function : Function) (cluster : Cluster) : Adds function cluster cluster :=
  ⟨rfl, fun _ _ => id, fun _ _ => .inr⟩

theorem Adds.trans (first : Adds function before middle) (second : Adds function middle after) :
    Adds function before after where
  functions := second.functions.trans first.functions
  keeps part key has := second.keeps part key (first.keeps part key has)
  others part key has := by
    rcases second.others part key has with isOwn | had
    · exact .inl isOwn
    · exact first.others part key had

theorem Removes.of_deployments (sameFunctions : after.functions = before.functions)
    (sameServices : after.services = before.services)
    (had : ∀ key, after.deployments.Has key → before.deployments.Has key)
    (others : ∀ key, before.deployments.Has key →
      key = RuntimePart.deployment.keyOf function ∨ after.deployments.Has key) :
    Removes function before after where
  functions := sameFunctions
  had
    | .deployment => had
    | .service => fun key => by simp only [Cluster.Has, sameServices, imp_self]
  others
    | .deployment => others
    | .service => fun key has => .inr (by simpa only [Cluster.Has, sameServices] using has)

theorem Removes.of_services (sameFunctions : after.functions = before.functions)
    (sameDeployments : after.deployments = before.deployments)
    (had : ∀ key, after.services.Has key → before.services.Has key)
    (others : ∀ key, before.services.Has key →
      key = RuntimePart.service.keyOf function ∨ after.services.Has key) :
    Removes function before after where
  functions := sameFunctions
  had
    | .deployment => fun key => by simp only [Cluster.Has, sameDeployments, imp_self]
    | .service => had
  others
    | .deployment => fun key has => .inr (by simpa only [Cluster.Has, sameDeployments] using has)
    | .service => others

theorem Adds.of_deployments (sameFunctions : after.functions = before.functions)
    (sameServices : after.services = before.services)
    (keeps : ∀ key, before.deployments.Has key → after.deployments.Has key)
    (others : ∀ key, after.deployments.Has key →
      key = RuntimePart.deployment.keyOf function ∨ before.deployments.Has key) :
    Adds function before after where
  functions := by rw [sameFunctions]
  keeps
    | .deployment => keeps
    | .service => fun key => by simp only [Cluster.Has, sameServices, imp_self]
  others
    | .deployment => others
    | .service => fun key has => .inr (by simpa only [Cluster.Has, sameServices] using has)

theorem Adds.of_services (sameFunctions : after.functions = before.functions)
    (sameDeployments : after.deployments = before.deployments)
    (keeps : ∀ key, before.services.Has key → after.services.Has key)
    (others : ∀ key, after.services.Has key →
      key = RuntimePart.service.keyOf function ∨ before.services.Has key) :
    Adds function before after where
  functions := by rw [sameFunctions]
  keeps
    | .deployment => fun key => by simp only [Cluster.Has, sameDeployments, imp_self]
    | .service => keeps
  others
    | .deployment => fun key has => .inr (by simpa only [Cluster.Has, sameDeployments] using has)
    | .service => others

end Relations

/-! ### The calls of an attempt -/

/-- Another active function uses the runtime of a dynamic language. -/
def inUse (function : Function) (store : Store NamespacedName FunctionSpec) : Bool :=
  isDynamicLanguage function.content.language &&
    (inNamespace function.key.namespace_ store.objects).any fun fn =>
      sharesRuntime function fn && fn.content.isActive

theorem hasOtherActive_ends (function : Function) (cluster : Cluster) :
    Ends (fun result after => after = cluster ∧
        ∀ shared, result = .ok shared → shared = inUse function cluster.functions)
      (hasOtherActiveFunctionUsingSharedRuntime function) cluster := by
  unfold hasOtherActiveFunctionUsingSharedRuntime
  by_cases dynamic : isDynamicLanguage function.content.language = true
  · simp only [dynamic, Bool.not_true, Bool.false_eq_true, if_false]
    apply And.intro trivial
    intro circumstance
    rcases answered : answerAlone (.functions .list) circumstance cluster with ⟨_ | items, after⟩
    · obtain ⟨rfl, -⟩ := answer_listFunctions answered
      exact ⟨rfl, fun shared isOk => by cases isOk⟩
    · obtain ⟨rfl, listed⟩ := answer_listFunctions answered
      apply And.intro rfl
      intro shared isOk
      obtain rfl := Except.ok.inj isOk
      rw [listed items rfl, inUse, dynamic, Bool.true_and]
  · simp [inUse, dynamic]

theorem answer_deleteDeployment {function : Function} {circumstance : ApiCall.Circumstance}
    {before after : Cluster} {response : Except StoreError Unit}
    (answered : answerAlone (.deployments (.delete (RuntimePart.deployment.keyOf function)))
      circumstance before = (response, after)) :
    Removes function before after ∧
      (response = .ok () → ¬ after.Has .deployment (RuntimePart.deployment.keyOf function)) := by
  obtain ⟨sameFunctions, sameServices, unchanged, accepted⟩ := answer_deployments answered
  cases response with
  | error err =>
      refine ⟨.of_deployments sameFunctions sameServices ?_ ?_, fun isOk => by cases isOk⟩
      · exact fun key has => unchanged err rfl ▸ has
      · exact fun key has => .inr (unchanged err rfl ▸ has)
  | ok value =>
      have hasIff : ∀ key, after.deployments.Has key ↔
          key ≠ RuntimePart.deployment.keyOf function ∧ before.deployments.Has key :=
        fun key => Store.has_delete (accepted value rfl)
      refine ⟨.of_deployments sameFunctions sameServices ?_ ?_, fun _ has => ?_⟩
      · exact fun key has => ((hasIff key).mp has).2
      · exact fun key has => or_iff_not_imp_left.mpr fun otherKey => (hasIff key).mpr ⟨otherKey, has⟩
      · exact ((hasIff _).mp has).1 rfl

theorem answer_deleteService {function : Function} {circumstance : ApiCall.Circumstance}
    {before after : Cluster} {response : Except StoreError Unit}
    (answered : answerAlone (.services (.delete (RuntimePart.service.keyOf function)))
      circumstance before = (response, after)) :
    Removes function before after ∧
      (response = .ok () → ¬ after.Has .service (RuntimePart.service.keyOf function)) := by
  obtain ⟨sameFunctions, sameDeployments, unchanged, accepted⟩ := answer_services answered
  cases response with
  | error err =>
      refine ⟨.of_services sameFunctions sameDeployments ?_ ?_, fun isOk => by cases isOk⟩
      · exact fun key has => unchanged err rfl ▸ has
      · exact fun key has => .inr (unchanged err rfl ▸ has)
  | ok value =>
      have hasIff : ∀ key, after.services.Has key ↔
          key ≠ RuntimePart.service.keyOf function ∧ before.services.Has key :=
        fun key => Store.has_delete (accepted value rfl)
      refine ⟨.of_services sameFunctions sameDeployments ?_ ?_, fun _ has => ?_⟩
      · exact fun key has => ((hasIff key).mp has).2
      · exact fun key has => or_iff_not_imp_left.mpr fun otherKey => (hasIff key).mpr ⟨otherKey, has⟩
      · exact ((hasIff _).mp has).1 rfl

theorem deleteDeployment_ends (function : Function) (cluster : Cluster) :
    Ends (fun result after => Removes function cluster after ∧
        (result = .ok () → ¬ after.Has .deployment (RuntimePart.deployment.keyOf function)))
      (deleteDeployment (RuntimePart.deployment.keyOf function)) cluster := by
  unfold deleteDeployment
  apply And.intro trivial
  intro circumstance
  rcases answered : answerAlone (.deployments (.get (RuntimePart.deployment.keyOf function)))
    circumstance cluster with ⟨err | existing, after⟩
  · obtain ⟨rfl, -, absent⟩ := answer_getDeployment answered
    apply And.intro (.refl function _)
    intro isOk
    cases err with
    | notFound =>
        rintro ⟨existing, found⟩
        exact absurd ((absent rfl).symm.trans found) (by simp)
    | _ => cases isOk
  · obtain ⟨rfl, found, -⟩ := answer_getDeployment answered
    have keyEq := Store.key_of_find?_eq_some (found existing rfl)
    obtain ⟨key, version, content⟩ := existing
    obtain rfl : key = RuntimePart.deployment.keyOf function := keyEq
    exact ⟨trivial, fun circumstance => answer_deleteDeployment rfl⟩

theorem deleteService_ends (function : Function) (cluster : Cluster) :
    Ends (fun result after => Removes function cluster after ∧
        (result = .ok () → ¬ after.Has .service (RuntimePart.service.keyOf function)))
      (deleteService (RuntimePart.service.keyOf function)) cluster := by
  unfold deleteService
  apply And.intro trivial
  intro circumstance
  rcases answered : answerAlone (.services (.get (RuntimePart.service.keyOf function)))
    circumstance cluster with ⟨err | existing, after⟩
  · obtain ⟨rfl, -, absent⟩ := answer_getService answered
    apply And.intro (.refl function _)
    intro isOk
    cases err with
    | notFound =>
        rintro ⟨existing, found⟩
        exact absurd ((absent rfl).symm.trans found) (by simp)
    | _ => cases isOk
  · obtain ⟨rfl, found, -⟩ := answer_getService answered
    have keyEq := Store.key_of_find?_eq_some (found existing rfl)
    obtain ⟨key, version, content⟩ := existing
    obtain rfl : key = RuntimePart.service.keyOf function := keyEq
    exact ⟨trivial, fun circumstance => answer_deleteService rfl⟩

/-- An attempt to delete a runtime that is not in use, or nothing. -/
theorem deleteRuntime_ends (function : Function) (cluster : Cluster) :
    Ends (fun result after => Removes function cluster after ∧
        (inUse function cluster.functions = true → after = cluster) ∧
        (inUse function cluster.functions = false → result = .ok () →
          ∀ part, ¬ after.Has part (part.keyOf function)))
      (deleteRuntime function) cluster := by
  unfold deleteRuntime
  refine ensures_bind.mpr ((hasOtherActive_ends function cluster).imp (fun _ _ => id) ?_)
  rintro (err | _ | _) after ⟨rfl, isInUse⟩
  · exact ⟨.refl function _, fun _ => rfl, fun _ isOk => by cases isOk⟩
  · have notInUse := (isInUse false rfl).symm
    refine ensures_bind.mpr ((deleteDeployment_ends function after).imp (fun _ _ => id) ?_)
    rintro (err | _) middle ⟨removes, gone⟩
    · refine ⟨removes, fun used => ?_, fun _ isOk => by cases isOk⟩
      exact absurd (used.symm.trans notInUse) (by simp)
    · apply (deleteService_ends function middle).imp (fun _ _ => id)
      rintro result last ⟨removesService, serviceGone⟩
      refine ⟨removes.trans removesService, fun used => ?_, fun _ isOk part => ?_⟩
      · exact absurd (used.symm.trans notInUse) (by simp)
      · cases part with
        | deployment => exact fun has => gone rfl (removesService.had .deployment _ has)
        | service => exact serviceGone isOk
  · apply And.intro (.refl function _)
    apply And.intro (fun _ => rfl)
    intro notInUse
    exact absurd ((isInUse true rfl).trans notInUse) (by simp)

/-- A create or an update of the Deployment of the function. -/
theorem answer_storeDeployment {function : Function} {circumstance : ApiCall.Circumstance}
    {before after : Cluster} {call : DeploymentCall} {response : call.Response}
    (answered : answerAlone (.deployments call) circumstance before = (response, after))
    (stores : ∀ value, call.execute (fun edit => edit.elim) before.deployments =
        (.ok value, after.deployments) →
      ∀ key, after.deployments.Has key ↔
        key = RuntimePart.deployment.keyOf function ∨ before.deployments.Has key) :
    Adds function before after ∧ after.functions = before.functions ∧
      (response.map (fun _ => ()) = .ok () →
        after.Has .deployment (RuntimePart.deployment.keyOf function)) := by
  obtain ⟨sameFunctions, sameServices, unchanged, accepted⟩ := answer_deployments answered
  cases response with
  | error err =>
      refine ⟨.of_deployments sameFunctions sameServices ?_ ?_, sameFunctions,
        fun isOk => by cases isOk⟩
      · exact fun key has => unchanged err rfl ▸ has
      · exact fun key has => .inr (unchanged err rfl ▸ has)
  | ok value =>
      have hasIff := stores value (accepted value rfl)
      exact ⟨.of_deployments sameFunctions sameServices (fun key has => (hasIff key).mpr (.inr has))
        (fun key => (hasIff key).mp), sameFunctions, fun _ => (hasIff _).mpr (.inl rfl)⟩

/-- A create or an update of the Service of the function. -/
theorem answer_storeService {function : Function} {circumstance : ApiCall.Circumstance}
    {before after : Cluster} {call : ServiceCall} {response : call.Response}
    (answered : answerAlone (.services call) circumstance before = (response, after))
    (stores : ∀ value, call.execute (fun edit => edit.elim) before.services =
        (.ok value, after.services) →
      ∀ key, after.services.Has key ↔
        key = RuntimePart.service.keyOf function ∨ before.services.Has key) :
    Adds function before after ∧ after.functions = before.functions ∧
      (response.map (fun _ => ()) = .ok () →
        after.Has .service (RuntimePart.service.keyOf function)) := by
  obtain ⟨sameFunctions, sameDeployments, unchanged, accepted⟩ := answer_services answered
  cases response with
  | error err =>
      refine ⟨.of_services sameFunctions sameDeployments ?_ ?_, sameFunctions,
        fun isOk => by cases isOk⟩
      · exact fun key has => unchanged err rfl ▸ has
      · exact fun key has => .inr (unchanged err rfl ▸ has)
  | ok value =>
      have hasIff := stores value (accepted value rfl)
      exact ⟨.of_services sameFunctions sameDeployments (fun key has => (hasIff key).mpr (.inr has))
        (fun key => (hasIff key).mp), sameFunctions, fun _ => (hasIff _).mpr (.inl rfl)⟩

theorem createOrUpdateDeployment_ends (cfg : Settings) (function : Function) (cluster : Cluster) :
    Ends (fun result after => Adds function cluster after ∧ after.functions = cluster.functions ∧
        (result = .ok () → after.Has .deployment (RuntimePart.deployment.keyOf function)))
      (createOrUpdateDeployment cfg function) cluster := by
  unfold createOrUpdateDeployment
  apply And.intro trivial
  intro circumstance
  rcases answered : answerAlone (.deployments
    (.get ⟨function.key.namespace_, getDeploymentName function⟩)) circumstance cluster with ⟨err | existing, after⟩
  · obtain ⟨rfl, -, -⟩ := answer_getDeployment answered
    cases err with
    | notFound =>
        refine ⟨trivial, fun circumstance => answer_storeDeployment rfl ?_⟩
        exact fun value accepted key => Store.has_create accepted
    | _ => exact ⟨.refl function _, rfl, fun isOk => by cases isOk⟩
  · obtain ⟨rfl, found, -⟩ := answer_getDeployment answered
    refine ⟨trivial, fun circumstance => answer_storeDeployment rfl ?_⟩
    intro value accepted key
    rw [Store.has_update accepted, iff_or_self]
    rintro rfl
    exact ⟨existing, found existing rfl⟩

theorem createOrUpdateService_ends (function : Function) (cluster : Cluster) :
    Ends (fun result after => Adds function cluster after ∧ after.functions = cluster.functions ∧
        (result = .ok () → after.Has .service (RuntimePart.service.keyOf function)))
      (createOrUpdateService function) cluster := by
  unfold createOrUpdateService
  apply And.intro trivial
  intro circumstance
  rcases answered : answerAlone (.services
    (.get ⟨function.key.namespace_, getServiceName function⟩)) circumstance cluster with ⟨err | existing, after⟩
  · obtain ⟨rfl, -, -⟩ := answer_getService answered
    cases err with
    | notFound =>
        refine ⟨trivial, fun circumstance => answer_storeService rfl ?_⟩
        exact fun value accepted key => Store.has_create accepted
    | _ => exact ⟨.refl function _, rfl, fun isOk => by cases isOk⟩
  · obtain ⟨rfl, found, -⟩ := answer_getService answered
    refine ⟨trivial, fun circumstance => answer_storeService rfl ?_⟩
    intro value accepted key
    rw [Store.has_update accepted, iff_or_self]
    rintro rfl
    exact ⟨existing, found existing rfl⟩

/-! ### Attempts -/

/-- Writing a lease keeps the view of the functions. -/
theorem views_update {store after : Store NamespacedName FunctionSpec} {function written : Function}
    {time : Int} (found : store.find? function.key = some function)
    (accepted : store.update (function.withLease time) = (.ok written, after)) :
    views after = views store := by
  unfold Store.update at accepted
  rw [show (function.withLease time).key = function.key from rfl, found] at accepted
  simp only [show (function.withLease time).version = function.version from rfl, if_true] at accepted
  obtain rfl := (Prod.mk.inj accepted).2
  unfold Store.write
  split
  · rfl
  · unfold views Store.replace
    simp only [List.map_map, List.map_inj_left, Function.comp_apply]
    intro object member
    split
    · next sameKey =>
        obtain rfl := Store.eq_of_mem_of_key_eq member (Store.mem_of_find?_eq_some found) sameKey
        rfl
    · rfl

/-- An attempt to reconcile a function that does not exist. -/
theorem reconcile_ends_of_absent (cfg : Settings) {key : NamespacedName} {cluster : Cluster}
    (absent : cluster.functions.find? key = none) :
    Ends (fun _ after => after = cluster) (reconcile cfg key) cluster := by
  unfold reconcile
  apply ensures_bind.mpr
  apply And.intro trivial
  intro circumstance
  rcases answered : answerAlone (.functions (.get key)) circumstance cluster with
    ⟨err | read, after⟩
  · exact (answer_getFunction answered).1
  · obtain ⟨rfl, readFound, -⟩ := answer_getFunction answered
    exact absurd (absent.symm.trans (readFound read rfl)) (by simp)

/-- An attempt to reconcile an active function. -/
theorem reconcile_ends_of_active (cfg : Settings) {function : Function} {cluster : Cluster}
    (found : cluster.functions.find? function.key = some function)
    (active : function.content.isActive = true) :
    Ends (fun result after => Adds function cluster after ∧
        (result = .ok () → ∀ part, after.Has part (part.keyOf function)))
      (reconcile cfg function.key) cluster := by
  unfold reconcile
  apply ensures_bind.mpr
  apply And.intro trivial
  intro circumstance
  rcases answered : answerAlone (.functions (.get function.key)) circumstance cluster with
    ⟨err | read, after⟩
  · obtain ⟨rfl, -, absent⟩ := answer_getFunction answered
    apply And.intro (.refl function _)
    intro isOk
    cases err with
    | notFound => exact absurd ((absent rfl).symm.trans found) (by simp)
    | _ => cases isOk
  · obtain ⟨rfl, readFound, -⟩ := answer_getFunction answered
    obtain rfl : function = read := Option.some.inj (found.symm.trans (readFound read rfl))
    simp only [ensures_done, active, Bool.not_true, Bool.false_eq_true, if_false]
    refine ensures_bind.mpr ((createOrUpdateDeployment_ends cfg function after).imp (fun _ _ => id) ?_)
    rintro (err | _) deployed ⟨adds, sameFunctions, hasDeployment⟩
    · exact ⟨adds, fun isOk => by cases isOk⟩
    · refine ensures_bind.mpr ((createOrUpdateService_ends function deployed).imp (fun _ _ => id) ?_)
      rintro (err | _) served ⟨addsService, sameFunctionsToo, hasService⟩
      · exact ⟨adds.trans addsService, fun isOk => by cases isOk⟩
      · refine ⟨trivial, fun reading => ⟨trivial, fun circumstance => ?_⟩⟩
        have both : Adds function after served := adds.trans addsService
        have parts : ∀ part, served.Has part (part.keyOf function) := by
          intro part
          cases part with
          | deployment => exact addsService.keeps .deployment _ (hasDeployment rfl)
          | service => exact hasService rfl
        rcases updated : answerAlone (.functions (.update (function.withLease
          ((answerAlone .now reading served).1 + cfg.keepWarmDuration)))) circumstance
          (answerAlone .now reading served).2 with ⟨response, last⟩
        obtain ⟨sameDeployments, sameServices, unchanged, accepted⟩ := answer_functions updated
        have foundNow : (answerAlone .now reading served).2.functions.find? function.key =
            some function := by
          show served.functions.find? function.key = some function
          rw [sameFunctionsToo, sameFunctions, found]
        have sameViews : views last.functions = views served.functions := by
          cases response with
          | error err => rw [unchanged err rfl]; rfl
          | ok written => exact views_update foundNow (accepted written rfl)
        have hasIff : ∀ part key, last.Has part key ↔ served.Has part key := by
          intro part key
          cases part with
          | deployment => simp only [Cluster.Has, sameDeployments]; rfl
          | service => simp only [Cluster.Has, sameServices]; rfl
        refine ⟨both.trans ⟨sameViews, fun part key => (hasIff part key).mpr,
          fun part key has => .inr ((hasIff part key).mp has)⟩, fun _ part => ?_⟩
        exact (hasIff part _).mpr (parts part)

/-- An attempt to reconcile an inactive function. -/
theorem reconcile_ends_of_inactive (cfg : Settings) {function : Function} {cluster : Cluster}
    (found : cluster.functions.find? function.key = some function)
    (inactive : function.content.isActive = false) :
    Ends (fun result after => Removes function cluster after ∧
        (inUse function cluster.functions = true → after = cluster) ∧
        (inUse function cluster.functions = false → result = .ok () →
          ∀ part, ¬ after.Has part (part.keyOf function)))
      (reconcile cfg function.key) cluster := by
  unfold reconcile
  apply ensures_bind.mpr
  apply And.intro trivial
  intro circumstance
  rcases answered : answerAlone (.functions (.get function.key)) circumstance cluster with
    ⟨err | read, after⟩
  · obtain ⟨rfl, -, absent⟩ := answer_getFunction answered
    apply And.intro (.refl function _)
    apply And.intro (fun _ => rfl)
    intro _ isOk
    cases err with
    | notFound => exact absurd ((absent rfl).symm.trans found) (by simp)
    | _ => cases isOk
  · obtain ⟨rfl, readFound, -⟩ := answer_getFunction answered
    obtain rfl : function = read := Option.some.inj (found.symm.trans (readFound read rfl))
    simp only [ensures_done, inactive, Bool.not_false, if_true]
    exact deleteRuntime_ends function after

end Operator

end Litefunctions
