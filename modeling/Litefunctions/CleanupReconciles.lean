import Litefunctions.FunctionService
import Litefunctions.ReconcileEffects

/-!
# Cleanup as deactivation and reconciliation

The cleanup command deactivates functions and deletes their runtimes itself,
with its own copy of the sharing rule and from a list that it took once.  When
nobody else writes and no call fails, this is the same as marking each listed
function whose lease is over inactive and reconciling it.  Both programs take
the cluster through the same sequence of states, `retire`.
-/

namespace Litefunctions

namespace Operator

open Program

/-- A cluster answers every call to a client that is alone; `elapsed` is the
time since the clock was last read. -/
def answerAvailable (call : ApiCall) (elapsed : Nat) (cluster : Cluster) :
    call.Response × Cluster :=
  call.answer false elapsed cluster

/-- The program ends with this result and this cluster. -/
abbrev EndsIn {Result : Type} (result : Result) (last : Cluster) (program : ApiProgram Result)
    (cluster : Cluster) : Prop :=
  program.Ensures answerAvailable (fun _ _ => True)
    (fun ended after => ended = result ∧ after = last) cluster

/-- For each function that is active with a lease over at `now`,
`MarkFunctionInactive` and then `Reconcile`. -/
def deactivateExpired (cfg : Settings) (now : Int) : List Function → ApiProgram Unit
  | [] => return
  | function :: items => do
      if function.content.isActive ∧ function.content.deProvisionTime.ExpiredAt now then
        let _ ← markFunctionInactive function.key.namespace_ function.key.name
        let _ ← reconcile cfg function.key
        deactivateExpired cfg now items
      else
        deactivateExpired cfg now items

/-! ### The states in between -/

/-- The cluster without the runtime of the function. -/
def removeRuntime (function : Function) (cluster : Cluster) : Cluster :=
  { cluster with
    deployments := (cluster.deployments.delete (RuntimePart.deployment.keyOf function)).2
    services := (cluster.services.delete (RuntimePart.service.keyOf function)).2 }

/-- The cluster without the runtime of the function, unless it is in use. -/
def removeUnused (function : Function) (cluster : Cluster) : Cluster :=
  if inUse function cluster.functions then cluster else removeRuntime function cluster

/-- The function made inactive, as stored. -/
def deactivated (function : Function) (cluster : Cluster) : Function :=
  (cluster.functions.write function (function.setActive false).content).1

/-- The cluster with the function inactive. -/
def markInactive (function : Function) (cluster : Cluster) : Cluster :=
  { cluster with
    functions := (cluster.functions.write function (function.setActive false).content).2 }

/-- The cluster after the function was deactivated and its runtime removed. -/
def retire (function : Function) (cluster : Cluster) : Cluster :=
  removeUnused (deactivated function cluster) (markInactive function cluster)

/-- The cluster after all listed functions with a lease over were retired. -/
def retireExpired (now : Int) : List Function → Cluster → Cluster
  | [], cluster => cluster
  | function :: items, cluster =>
      if function.content.isActive ∧ function.content.deProvisionTime.ExpiredAt now then
        retireExpired now items (retire function cluster)
      else
        retireExpired now items cluster

section Steps

variable {function : Function} {cluster : Cluster} {Result : Type}

theorem delete_eq_self {Key Content : Type} [DecidableEq Key] {store : Store Key Content} {key : Key}
    (absent : store.find? key = none) : (store.delete key).2 = store := by
  unfold Store.delete
  rw [absent]

theorem hasOtherActive_endsIn (function : Function) (cluster : Cluster) :
    EndsIn (.ok (inUse function cluster.functions)) cluster
      (hasOtherActiveFunctionUsingSharedRuntime function) cluster := by
  unfold hasOtherActiveFunctionUsingSharedRuntime inUse
  by_cases dynamic : isDynamicLanguage function.content.language = true
  · simp only [dynamic, Bool.not_true, Bool.false_eq_true, if_false, Bool.true_and]
    exact ⟨trivial, fun _ => ⟨rfl, rfl⟩⟩
  · simp [dynamic]

theorem deleteDeployment_endsIn (key : NamespacedName) (cluster : Cluster) :
    EndsIn (.ok ()) { cluster with deployments := (cluster.deployments.delete key).2 }
      (deleteDeployment key) cluster := by
  unfold deleteDeployment
  apply ensures_bind.mpr
  apply And.intro trivial
  intro _
  simp only [answerAvailable, ApiCall.answer, StoreCall.execute, Bool.false_eq_true, if_false]
  cases found : cluster.deployments.find? key with
  | none => exact ⟨rfl, by rw [delete_eq_self found]⟩
  | some existing =>
      obtain rfl := Store.key_of_find?_eq_some found
      refine ⟨trivial, fun _ => ⟨?_, rfl⟩⟩
      simp only [answerAvailable, ApiCall.answer, StoreCall.execute, Store.delete, found,
        Bool.false_eq_true, if_false]

theorem deleteService_endsIn (key : NamespacedName) (cluster : Cluster) :
    EndsIn (.ok ()) { cluster with services := (cluster.services.delete key).2 }
      (deleteService key) cluster := by
  unfold deleteService
  apply ensures_bind.mpr
  apply And.intro trivial
  intro _
  simp only [answerAvailable, ApiCall.answer, StoreCall.execute, Bool.false_eq_true, if_false]
  cases found : cluster.services.find? key with
  | none => exact ⟨rfl, by rw [delete_eq_self found]⟩
  | some existing =>
      obtain rfl := Store.key_of_find?_eq_some found
      refine ⟨trivial, fun _ => ⟨?_, rfl⟩⟩
      simp only [answerAvailable, ApiCall.answer, StoreCall.execute, Store.delete, found,
        Bool.false_eq_true, if_false]

/-- After a program that ends in one way the next one starts there. -/
theorem EndsIn.bind {Other : Type} {first : Result} {middle : Cluster} {program : ApiProgram Result}
    {next : Result → ApiProgram Other} {post : Other → Cluster → Prop}
    (ends : EndsIn first middle program cluster)
    (continues : (next first).Ensures answerAvailable (fun _ _ => True) post middle) :
    (program >>= next).Ensures answerAvailable (fun _ _ => True) post cluster := by
  refine ensures_bind.mpr (ends.imp (fun _ _ => id) ?_)
  rintro _ _ ⟨rfl, rfl⟩
  exact continues

theorem deleteRuntime_endsIn (function : Function) (cluster : Cluster) :
    EndsIn (.ok ()) (removeUnused function cluster) (deleteRuntime function) cluster := by
  unfold deleteRuntime removeUnused
  apply (hasOtherActive_endsIn function cluster).bind
  cases inUse function cluster.functions with
  | true => exact ⟨rfl, rfl⟩
  | false =>
      simp only [Bool.false_eq_true, if_false]
      apply (deleteDeployment_endsIn _ cluster).bind
      exact deleteService_endsIn (RuntimePart.service.keyOf function)
        { cluster with
          deployments := (cluster.deployments.delete (RuntimePart.deployment.keyOf function)).2 }

/-! ### One function -/

theorem deactivated_key (function : Function) (cluster : Cluster) :
    (deactivated function cluster).key = function.key :=
  Store.write_key

theorem deactivated_content (function : Function) (cluster : Cluster) :
    (deactivated function cluster).content = (function.setActive false).content :=
  Store.write_content

theorem find?_markInactive (found : cluster.functions.find? function.key = some function)
    (key : NamespacedName) :
    (markInactive function cluster).functions.find? key =
      if key = function.key then some (deactivated function cluster)
      else cluster.functions.find? key :=
  Store.find?_write found key

theorem retire_functions (function : Function) (cluster : Cluster) :
    (retire function cluster).functions = (markInactive function cluster).functions := by
  unfold retire removeUnused
  split <;> rfl

theorem markFunctionInactive_endsIn (found : cluster.functions.find? function.key = some function)
    (active : function.content.isActive = true) :
    EndsIn (.ok ()) (markInactive function cluster)
      (markFunctionInactive function.key.namespace_ function.key.name) cluster := by
  have updateEq : cluster.functions.update (function.setActive false) =
      (.ok (deactivated function cluster), (markInactive function cluster).functions) := by
    unfold Store.update
    rw [show (function.setActive false).key = function.key from rfl, found]
    exact if_pos rfl
  have getEnds : EndsIn (.ok function) cluster
      (getFunction function.key.namespace_ function.key.name) cluster := by
    apply And.intro trivial
    intro _
    simp only [answerAvailable, ApiCall.answer, StoreCall.execute, Bool.false_eq_true, if_false]
    rw [found]
    exact ⟨rfl, rfl⟩
  unfold markFunctionInactive
  apply getEnds.bind
  simp only [active, Bool.not_true, Bool.false_eq_true, if_false]
  apply ensures_bind.mpr
  apply And.intro trivial
  intro _
  simp only [answerAvailable, ApiCall.answer, StoreCall.execute, Bool.false_eq_true, if_false,
    updateEq]
  exact ⟨rfl, rfl⟩

theorem reconcile_endsIn_of_inactive (cfg : Settings)
    (found : cluster.functions.find? function.key = some function)
    (inactive : function.content.isActive = false) :
    EndsIn (.ok ()) (removeUnused function cluster) (reconcile cfg function.key) cluster := by
  unfold reconcile
  apply ensures_bind.mpr
  apply And.intro trivial
  intro _
  simp only [answerAvailable, ApiCall.answer, StoreCall.execute, Bool.false_eq_true, if_false,
    found, ensures_done, inactive, Bool.not_false, if_true]
  exact deleteRuntime_endsIn function cluster

/-- What cleanup does with a function whose lease is over. -/
theorem deactivate_endsIn (found : cluster.functions.find? function.key = some function)
    (active : function.content.isActive = true) :
    EndsIn () (retire function cluster) (deactivate function) cluster := by
  unfold deactivate
  have patchEq : cluster.functions.patch function.key (deactivation function).apply =
      (.ok (deactivated function cluster), (markInactive function cluster).functions) := by
    unfold Store.patch
    rw [found]
    simp [deactivation, mergeFrom, FunctionPatch.apply, Function.setActive, active, deactivated,
      markInactive]
  apply ensures_bind.mpr
  apply And.intro trivial
  intro _
  simp only [answerAvailable, ApiCall.answer, StoreCall.execute, Bool.false_eq_true, if_false,
    patchEq, ensures_done, afterPatch]
  apply (hasOtherActive_endsIn (deactivated function cluster) (markInactive function cluster)).bind
  unfold retire removeUnused
  cases inUse (deactivated function cluster) (markInactive function cluster).functions with
  | true => exact ⟨trivial, rfl⟩
  | false =>
      simp only [Bool.false_eq_true, if_false]
      apply (deleteDeployment_endsIn _ _).bind
      apply (deleteService_endsIn _ _).bind
      exact ⟨trivial, rfl⟩

end Steps

/-! ### All listed functions -/

/-- The functions are stored as listed. -/
def StoredAsListed (items : List Function) (cluster : Cluster) : Prop :=
  (items.map (·.key)).Nodup ∧
    ∀ function ∈ items, cluster.functions.find? function.key = some function

section Lists

variable {function : Function} {items : List Function} {cluster : Cluster}

theorem StoredAsListed.head (stored : StoredAsListed (function :: items) cluster) :
    cluster.functions.find? function.key = some function :=
  stored.2 function List.mem_cons_self

theorem StoredAsListed.tail (stored : StoredAsListed (function :: items) cluster) :
    StoredAsListed items cluster :=
  ⟨(List.nodup_cons.mp stored.1).2, fun other member =>
    stored.2 other (List.mem_cons_of_mem _ member)⟩

/-- Retiring one function leaves the others of the list as they were. -/
theorem StoredAsListed.retire (stored : StoredAsListed (function :: items) cluster) :
    StoredAsListed items (retire function cluster) := by
  apply And.intro stored.tail.1
  intro other member
  have otherKey : other.key ≠ function.key := fun sameKey =>
    (List.nodup_cons.mp stored.1).1 (List.mem_map.mpr ⟨other, member, sameKey⟩)
  rw [retire_functions, find?_markInactive stored.head, if_neg otherKey]
  exact stored.tail.2 other member

theorem cleanupFunctions_endsIn (now : Int) (stored : StoredAsListed items cluster) :
    EndsIn () (retireExpired now items cluster) (cleanupFunctions now items) cluster := by
  induction items generalizing cluster with
  | nil => exact ⟨rfl, rfl⟩
  | cons function items ih =>
      unfold cleanupFunctions retireExpired
      by_cases expired : function.content.isActive ∧ function.content.deProvisionTime.ExpiredAt now
      · rw [if_pos expired]
        have one : EndsIn () (retire function cluster) (cleanupFunction now function) cluster := by
          obtain ⟨active, deprovisionTime, parsed, ended⟩ := expired
          have isSet : function.content.deProvisionTime ≠ .unset := fun unset => by
            rw [unset] at parsed
            cases parsed
          unfold cleanupFunction
          rw [if_pos ⟨active, isSet⟩]
          simp only [parsed, if_pos ended]
          exact deactivate_endsIn stored.head active
        exact one.bind (ih stored.retire)
      · rw [if_neg expired]
        have one : EndsIn () cluster (cleanupFunction now function) cluster := by
          unfold cleanupFunction
          split
          · next active =>
              split
              · exact ⟨rfl, rfl⟩
              · next deprovisionTime parsed =>
                  have notEnded : ¬ deprovisionTime < now := fun ended =>
                    expired ⟨active.1, deprovisionTime, parsed, ended⟩
                  rw [if_neg notEnded]
                  exact ⟨rfl, rfl⟩
          · exact ⟨rfl, rfl⟩
        exact one.bind (ih stored.tail)

theorem deactivateExpired_endsIn (cfg : Settings) (now : Int) (stored : StoredAsListed items cluster) :
    EndsIn () (retireExpired now items cluster) (deactivateExpired cfg now items) cluster := by
  induction items generalizing cluster with
  | nil => exact ⟨rfl, rfl⟩
  | cons function items ih =>
      unfold deactivateExpired retireExpired
      by_cases expired : function.content.isActive ∧ function.content.deProvisionTime.ExpiredAt now
      · rw [if_pos expired, if_pos expired]
        apply (markFunctionInactive_endsIn stored.head expired.1).bind
        have foundInactive : (markInactive function cluster).functions.find?
            (deactivated function cluster).key = some (deactivated function cluster) := by
          rw [find?_markInactive stored.head, if_pos (deactivated_key function cluster)]
        have reconciled := reconcile_endsIn_of_inactive cfg foundInactive
          (congrArg FunctionSpec.isActive (deactivated_content function cluster))
        rw [deactivated_key] at reconciled
        exact reconciled.bind (ih stored.retire)
      · rw [if_neg expired, if_neg expired]
        exact ih stored.tail

end Lists

/-! ### A whole pass -/

theorem storedAsListed_inNamespace (namespace_ : String) (cluster : Cluster) :
    StoredAsListed (inNamespace namespace_ cluster.functions.objects) cluster := by
  have sublist : (inNamespace namespace_ cluster.functions.objects).Sublist
      cluster.functions.objects := by
    unfold inNamespace
    split
    · exact List.Sublist.refl _
    · exact List.filter_sublist
  exact ⟨cluster.functions.keysDistinct.sublist (sublist.map _), fun function member =>
    Store.find?_key_of_mem (sublist.subset member)⟩

/-- A pass ends in the cluster in which the retirement of the listed functions
ends, at its reading of the clock. -/
theorem runCleanup_ends (namespace_ : String) (elapsed : Nat → Nat) (cluster : Cluster) :
    ((runCleanup namespace_).runAlone answerAvailable elapsed cluster).2 =
      retireExpired (cluster.clock + elapsed 1) (inNamespace namespace_ cluster.functions.objects)
        { cluster with clock := cluster.clock + elapsed 1 } := by
  have stored := storedAsListed_inNamespace namespace_
    { cluster with clock := cluster.clock + elapsed 1 }
  have rest : (cleanupFunctions (cluster.clock + elapsed 1)
        (inNamespace namespace_ cluster.functions.objects) >>= fun _ =>
          (pure (.ok ()) : ApiProgram (Except StoreError Unit))).Ensures answerAvailable
      (fun _ _ => True)
      (fun _ after => after = retireExpired (cluster.clock + elapsed 1)
        (inNamespace namespace_ cluster.functions.objects)
        { cluster with clock := cluster.clock + elapsed 1 })
      { cluster with clock := cluster.clock + elapsed 1 } :=
    (cleanupFunctions_endsIn (cluster.clock + elapsed 1) stored).bind rfl
  exact rest.ends fun index => elapsed (index + 2)

/-- A cleanup pass that runs alone and without failures ends in the same
functions, Deployments and Services as marking inactive and reconciling, one
after another, the listed functions whose lease is over at its reading of the
clock. -/
theorem cleanup_eq_deactivateExpired (cfg : Settings) (namespace_ : String)
    (elapsed elsewhere : Nat → Nat) (cluster : Cluster) :
    ((runCleanup namespace_).runAlone answerAvailable elapsed cluster).2 =
      ((deactivateExpired cfg (cluster.clock + elapsed 1)
          (inNamespace namespace_ cluster.functions.objects)).runAlone answerAvailable elsewhere
        { cluster with clock := cluster.clock + elapsed 1 }).2 := by
  rw [runCleanup_ends]
  have stored := storedAsListed_inNamespace namespace_
    { cluster with clock := cluster.clock + elapsed 1 }
  exact ((deactivateExpired_endsIn cfg _ stored).ends elsewhere).2.symm

end Operator

end Litefunctions
