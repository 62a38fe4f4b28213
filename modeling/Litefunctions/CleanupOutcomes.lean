import Litefunctions.CleanupPasses
import Litefunctions.CleanupReconciles
import Litefunctions.SharedRuntimes

/-!
# What a cleanup pass leaves

A pass takes its functions one after another, and whether it removes a shared
runtime depends on which of its functions are still active at that moment.  The
outcome does not depend on the order: every function whose lease is over is
inactive afterwards, and its runtime is gone unless a function that the pass
leaves active shares it.  A runtime that is spared for a function that the pass
deactivates later is removed with that one.
-/

namespace Litefunctions

/-! ### Removed objects -/

namespace Store

variable {Key Content : Type} [DecidableEq Key]

/-- The later store lacks the removed keys and is otherwise the earlier one. -/
structure Without (removed : Key → Prop) (before after : Store Key Content) : Prop where
  removes : ∀ key, removed key → after.find? key = none
  keeps : ∀ key, ¬ removed key → after.find? key = before.find? key

variable {first second third : Store Key Content} {removed other : Key → Prop}

theorem Without.of_nothing (nothing : ∀ key, ¬ removed key) (store : Store Key Content) :
    Without removed store store :=
  ⟨fun key isRemoved => absurd isRemoved (nothing key), fun _ _ => rfl⟩

theorem Without.trans (early : Without removed first second) (late : Without other second third) :
    Without (fun key => removed key ∨ other key) first third where
  removes key isRemoved := by
    by_cases isOther : other key
    · exact late.removes key isOther
    · rw [late.keeps key isOther]
      exact early.removes key (isRemoved.resolve_right isOther)
  keeps key isKept := by
    rw [late.keeps key fun isOther => isKept (.inr isOther)]
    exact early.keeps key fun isRemoved => isKept (.inl isRemoved)

theorem Without.congr (without : Without removed first second)
    (same : ∀ key, other key ↔ removed key) : Without other first second :=
  ⟨fun key isRemoved => without.removes key ((same key).mp isRemoved),
    fun key isKept => without.keeps key fun isRemoved => isKept ((same key).mpr isRemoved)⟩

theorem without_delete (store : Store Key Content) (key : Key) :
    Without (fun other => other = key) store (store.delete key).2 := by
  unfold delete
  cases found : store.find? key with
  | none =>
      refine ⟨?_, fun _ _ => rfl⟩
      rintro _ rfl
      exact found
  | some stored =>
      constructor
      · intro other same
        rw [find?_erase, if_pos same]
      · intro other different
        rw [find?_erase, if_neg different]

end Store

namespace Operator

/-- The later cluster lacks the removed parts of runtimes, and has the other
ones as before. -/
structure RuntimesWithout (removed : RuntimePart → NamespacedName → Prop) (before after : Cluster) :
    Prop where
  deployments : before.deployments.Without (removed .deployment) after.deployments
  services : before.services.Without (removed .service) after.services

section Parts

variable {first second third : Cluster} {removed other : RuntimePart → NamespacedName → Prop}

theorem RuntimesWithout.of_nothing (nothing : ∀ part key, ¬ removed part key) (cluster : Cluster) :
    RuntimesWithout removed cluster cluster :=
  ⟨.of_nothing (nothing .deployment) _, .of_nothing (nothing .service) _⟩

theorem RuntimesWithout.trans (early : RuntimesWithout removed first second)
    (late : RuntimesWithout other second third) :
    RuntimesWithout (fun part key => removed part key ∨ other part key) first third :=
  ⟨early.deployments.trans late.deployments, early.services.trans late.services⟩

theorem RuntimesWithout.congr (without : RuntimesWithout removed first second)
    (same : ∀ part key, other part key ↔ removed part key) : RuntimesWithout other first second :=
  ⟨without.deployments.congr (same .deployment), without.services.congr (same .service)⟩

theorem without_removeRuntime (function : Function) (cluster : Cluster) :
    RuntimesWithout (fun part key => key = part.keyOf function) cluster
      (removeRuntime function cluster) :=
  ⟨Store.without_delete _ _, Store.without_delete _ _⟩

theorem without_removeUnused (function : Function) (cluster : Cluster) :
    RuntimesWithout
      (fun part key => inUse function cluster.functions = false ∧ key = part.keyOf function)
      cluster (removeUnused function cluster) := by
  unfold removeUnused
  cases used : inUse function cluster.functions with
  | true => exact .of_nothing (fun _ _ isRemoved => nomatch isRemoved.1) cluster
  | false => exact (without_removeRuntime function cluster).congr fun _ _ => and_iff_right rfl

end Parts

/-! ### The functions that stay active -/

/-- Listed by the pass as active with a lease that is over. -/
def Lapsed (now : Int) (items : List Function) (function : Function) : Prop :=
  function ∈ items ∧ function.content.isActive = true ∧ function.content.deProvisionTime.ExpiredAt now

instance (now : Int) (items : List Function) (function : Function) :
    Decidable (Lapsed now items function) :=
  inferInstanceAs (Decidable (_ ∧ _ ∧ _))

/-- Stored as active, and not among the lapsed functions of the pass. -/
def StaysActive (now : Int) (items : List Function) (cluster : Cluster) (user : Function) : Prop :=
  user ∈ cluster.functions.objects ∧ user.content.isActive = true ∧ ¬ Lapsed now items user

/-- A function that stays active shares the runtime of this one. -/
def StaysUsed (now : Int) (items : List Function) (cluster : Cluster) (function : Function) : Prop :=
  isDynamicLanguage function.content.language = true ∧
    ∃ user, StaysActive now items cluster user ∧
      user.key.namespace_ = function.key.namespace_ ∧ sharesRuntime function user = true

/-- A runtime of a lapsed function that no function that stays active shares. -/
def Unneeded (now : Int) (items : List Function) (cluster : Cluster) (part : RuntimePart)
    (key : NamespacedName) : Prop :=
  ∃ function, Lapsed now items function ∧ key = part.keyOf function ∧
    ¬ StaysUsed now items cluster function

/-- What the pass leaves of a stored function. -/
def contentAfter (now : Int) (items : List Function) (function : Function) : FunctionSpec :=
  if Lapsed now items function then (function.setActive false).content else function.content

section Steps

variable {now : Int} {function user : Function} {items : List Function} {cluster : Cluster}

theorem mem_iff_find? {store : Store NamespacedName FunctionSpec} :
    user ∈ store.objects ↔ store.find? user.key = some user :=
  ⟨Store.find?_key_of_mem, Store.mem_of_find?_eq_some⟩

theorem lapsed_cons_of_ne (otherKey : user.key ≠ function.key) :
    Lapsed now (function :: items) user ↔ Lapsed now items user := by
  unfold Lapsed
  rw [List.mem_cons, or_and_right, or_iff_right]
  rintro ⟨rfl, -⟩
  exact otherKey rfl

theorem lapsed_cons (notLapsed : ¬ (function.content.isActive = true ∧
    function.content.deProvisionTime.ExpiredAt now)) :
    Lapsed now (function :: items) user ↔ Lapsed now items user := by
  unfold Lapsed
  rw [List.mem_cons, or_and_right, or_iff_right]
  rintro ⟨rfl, lapsed⟩
  exact notLapsed lapsed

/-- The functions that stay active are the same after a step of the pass. -/
theorem staysActive_retire (stored : StoredAsListed (function :: items) cluster)
    (lapsed : function.content.isActive = true ∧ function.content.deProvisionTime.ExpiredAt now) :
    StaysActive now items (retire function cluster) user ↔
      StaysActive now (function :: items) cluster user := by
  unfold StaysActive
  rw [mem_iff_find?, mem_iff_find?, retire_functions, find?_markInactive stored.head]
  by_cases sameKey : user.key = function.key
  · -- the function itself stays active neither before nor afterwards
    rw [if_pos sameKey, sameKey, stored.head]
    constructor
    · rintro ⟨isUser, active, -⟩
      rw [← Option.some.inj isUser, deactivated_content] at active
      cases active
    · rintro ⟨isUser, -, notLapsed⟩
      obtain rfl := Option.some.inj isUser
      exact absurd ⟨List.mem_cons_self, lapsed⟩ notLapsed
  · rw [if_neg sameKey]
    exact and_congr_right fun _ => and_congr_right fun _ =>
      not_congr (lapsed_cons_of_ne sameKey).symm

theorem staysUsed_retire (stored : StoredAsListed (function :: items) cluster)
    (lapsed : function.content.isActive = true ∧ function.content.deProvisionTime.ExpiredAt now)
    (other : Function) :
    StaysUsed now items (retire function cluster) other ↔
      StaysUsed now (function :: items) cluster other := by
  unfold StaysUsed
  simp only [staysActive_retire stored lapsed]

theorem inUse_iff_exists {store : Store NamespacedName FunctionSpec}
    (namespaced : function.key.namespace_ ≠ "") :
    inUse function store = true ↔ isDynamicLanguage function.content.language = true ∧
      ∃ user ∈ store.objects, user.content.isActive = true ∧
        user.key.namespace_ = function.key.namespace_ ∧ sharesRuntime function user = true := by
  unfold inUse inNamespace
  rw [if_neg namespaced, Bool.and_eq_true, List.any_eq_true]
  simp only [List.mem_filter, decide_eq_true_eq, Bool.and_eq_true]
  refine and_congr_right fun _ => exists_congr fun other => ?_
  tauto

/-- Sharing a runtime, told by all that it depends on. -/
theorem sharesRuntime_iff {fn : Function} :
    sharesRuntime function fn = true ↔ fn.key.name ≠ function.key.name ∧
      fn.content.project = function.content.project ∧
      fn.content.language = function.content.language := by
  simp [sharesRuntime]

theorem key_ext {first second : Function} (sameNamespace : first.key.namespace_ = second.key.namespace_)
    (sameName : first.key.name = second.key.name) : first.key = second.key :=
  (NamespacedName.mk.injEq _ _ _ _).mpr ⟨sameNamespace, sameName⟩

theorem inUse_deactivated (function : Function) (cluster : Cluster)
    (store : Store NamespacedName FunctionSpec) :
    inUse (deactivated function cluster) store = inUse function store := by
  simp only [inUse, sharesRuntime, deactivated_key, deactivated_content, Function.setActive]

theorem keyOf_deactivated (function : Function) (cluster : Cluster) (part : RuntimePart) :
    part.keyOf (deactivated function cluster) = part.keyOf function := by
  cases part <;>
    simp only [RuntimePart.keyOf, getDeploymentName, getServiceName, deactivated_key,
      deactivated_content, Function.setActive]

/-- What stays active is stored as active in the state before each step. -/
theorem inUse_of_staysUsed (namespaced : function.key.namespace_ ≠ "")
    (used : StaysUsed now items cluster function) : inUse function cluster.functions = true := by
  obtain ⟨dynamic, user, ⟨member, active, -⟩, sameNamespace, shares⟩ := used
  exact (inUse_iff_exists namespaced).mpr ⟨dynamic, user, member, active, sameNamespace, shares⟩

/-- A runtime that is spared although its function does not stay used: it is
also that of a lapsed function whose turn comes. -/
theorem unneeded_of_inUse (stored : StoredAsListed (function :: items) cluster)
    (namespaced : function.key.namespace_ ≠ "")
    (used : inUse function (retire function cluster).functions = true)
    (notUsed : ¬ StaysUsed now items (retire function cluster) function) (part : RuntimePart) :
    Unneeded now items (retire function cluster) part (part.keyOf function) := by
  obtain ⟨dynamic, user, member, active, sameNamespace, shares⟩ := (inUse_iff_exists namespaced).mp used
  obtain ⟨otherName, sameProject, sameLanguage⟩ := sharesRuntime_iff.mp shares
  have userLapses : Lapsed now items user := by
    by_contra notLapsed
    exact notUsed ⟨dynamic, user, ⟨member, active, notLapsed⟩, sameNamespace, shares⟩
  refine ⟨user, userLapses, ?_, fun userUsed => notUsed ?_⟩
  · exact keyOf_eq part sameNamespace.symm sameLanguage.symm sameProject.symm (sameLanguage ▸ dynamic)
  · -- what shares the runtime of the user is not the function, which is inactive
    obtain ⟨-, other, staysActive, inNamespace, sharesToo⟩ := userUsed
    obtain ⟨-, sameProjectToo, sameLanguageToo⟩ := sharesRuntime_iff.mp sharesToo
    have inSameNamespace := inNamespace.trans sameNamespace
    refine ⟨dynamic, other, staysActive, inSameNamespace, sharesRuntime_iff.mpr
      ⟨fun sameName => ?_, sameProjectToo.trans sameProject, sameLanguageToo.trans sameLanguage⟩⟩
    have sameKey := key_ext inSameNamespace sameName
    have found := mem_iff_find?.mp staysActive.1
    rw [retire_functions, find?_markInactive stored.head, if_pos sameKey] at found
    have inactive := staysActive.2.1
    rw [← Option.some.inj found, deactivated_content] at inactive
    cases inactive

/-! ### All listed functions -/

/-- The content of every function after a step. -/
theorem contentAfter_retire (stored : StoredAsListed (function :: items) cluster)
    (lapsed : function.content.isActive = true ∧ function.content.deProvisionTime.ExpiredAt now)
    (key : NamespacedName) :
    ((retire function cluster).functions.find? key).map (contentAfter now items) =
      (cluster.functions.find? key).map (contentAfter now (function :: items)) := by
  rw [retire_functions, find?_markInactive stored.head]
  split
  · next sameKey =>
      have notLapsed : ¬ Lapsed now items (deactivated function cluster) := by
        rintro ⟨-, active, -⟩
        rw [deactivated_content] at active
        cases active
      have isLapsed : Lapsed now (function :: items) function := ⟨List.mem_cons_self, lapsed⟩
      rw [sameKey, stored.head, Option.map_some, Option.map_some, contentAfter, contentAfter,
        if_neg notLapsed, if_pos isLapsed, deactivated_content]
  · next otherKey =>
      cases found : cluster.functions.find? key with
      | none => rfl
      | some other =>
          obtain rfl := Store.key_of_find?_eq_some found
          exact congrArg some (if_congr (lapsed_cons_of_ne otherKey).symm rfl rfl)

theorem content_retireExpired (stored : StoredAsListed items cluster) (key : NamespacedName) :
    ((retireExpired now items cluster).functions.find? key).map (·.content) =
      (cluster.functions.find? key).map (contentAfter now items) := by
  induction items generalizing cluster with
  | nil =>
      unfold retireExpired
      refine congrArg (Option.map · _) (funext fun function => ?_)
      exact (if_neg fun lapsed => List.not_mem_nil lapsed.1).symm
  | cons function items ih =>
      unfold retireExpired
      by_cases lapsed :
          function.content.isActive = true ∧ function.content.deProvisionTime.ExpiredAt now
      · rw [if_pos lapsed, ih stored.retire, contentAfter_retire stored lapsed]
      · rw [if_neg lapsed, ih stored.tail]
        refine congrArg (Option.map · _) (funext fun other => ?_)
        exact if_congr (lapsed_cons lapsed).symm rfl rfl

theorem unneeded_cons (notLapsed : ¬ (function.content.isActive = true ∧
    function.content.deProvisionTime.ExpiredAt now)) {part : RuntimePart} {key : NamespacedName} :
    Unneeded now (function :: items) cluster part key ↔ Unneeded now items cluster part key := by
  simp only [Unneeded, StaysUsed, StaysActive, lapsed_cons notLapsed]

/-- What is unneeded is what a step removes and what is unneeded after it. -/
theorem unneeded_retire (stored : StoredAsListed (function :: items) cluster)
    (lapsed : function.content.isActive = true ∧ function.content.deProvisionTime.ExpiredAt now)
    (namespaced : function.key.namespace_ ≠ "") {part : RuntimePart} {key : NamespacedName} :
    Unneeded now (function :: items) cluster part key ↔
      (inUse function (retire function cluster).functions = false ∧ key = part.keyOf function) ∨
        Unneeded now items (retire function cluster) part key := by
  constructor
  · rintro ⟨other, ⟨member, otherLapsed⟩, rfl, notUsed⟩
    rw [← staysUsed_retire stored lapsed] at notUsed
    rcases List.mem_cons.mp member with rfl | later
    · cases used : inUse other (retire other cluster).functions with
      | false => exact .inl ⟨rfl, rfl⟩
      | true => exact .inr (unneeded_of_inUse stored namespaced used notUsed part)
    · exact .inr ⟨other, ⟨later, otherLapsed⟩, rfl, notUsed⟩
  · rintro (⟨unused, rfl⟩ | ⟨other, ⟨member, otherLapsed⟩, rfl, notUsed⟩)
    · refine ⟨function, ⟨List.mem_cons_self, lapsed⟩, rfl, fun used => ?_⟩
      rw [← staysUsed_retire stored lapsed] at used
      rw [inUse_of_staysUsed namespaced used] at unused
      cases unused
    · rw [staysUsed_retire stored lapsed] at notUsed
      exact ⟨other, ⟨List.mem_cons_of_mem _ member, otherLapsed⟩, rfl, notUsed⟩

theorem without_retire (function : Function) (cluster : Cluster) :
    RuntimesWithout (fun part key =>
        inUse function (retire function cluster).functions = false ∧ key = part.keyOf function)
      cluster (retire function cluster) := by
  have without := without_removeUnused (deactivated function cluster) (markInactive function cluster)
  simp only [inUse_deactivated, keyOf_deactivated] at without
  rw [retire_functions]
  exact ⟨without.deployments, without.services⟩

theorem without_retireExpired (stored : StoredAsListed items cluster)
    (namespaced : ∀ function ∈ items, function.key.namespace_ ≠ "") :
    RuntimesWithout (Unneeded now items cluster) cluster (retireExpired now items cluster) := by
  induction items generalizing cluster with
  | nil => exact .of_nothing (fun _ _ ⟨_, lapsed, _⟩ => nomatch lapsed.1) cluster
  | cons function items ih =>
      obtain ⟨inNamespace, restInNamespace⟩ := List.forall_mem_cons.mp namespaced
      unfold retireExpired
      by_cases lapsed :
          function.content.isActive = true ∧ function.content.deProvisionTime.ExpiredAt now
      · rw [if_pos lapsed]
        exact ((without_retire function cluster).trans (ih stored.retire restInNamespace)).congr
          fun _ _ => unneeded_retire stored lapsed inNamespace
      · rw [if_neg lapsed]
        exact (ih stored.tail restInNamespace).congr fun _ _ => unneeded_cons lapsed

end Steps

/-! ### A whole pass -/

/-- A pass that runs alone and without failures makes exactly the listed
functions with a lapsed lease inactive, and removes exactly the runtimes of
these that no function that stays active shares, however the functions are
listed. -/
theorem cleanup_outcome (namespace_ : String) (elapsed : Nat → Nat) {cluster : Cluster}
    (namespaced : ∀ function ∈ cluster.functions.objects, function.key.namespace_ ≠ "") :
    let now := cluster.clock + elapsed 1
    let items := inNamespace namespace_ cluster.functions.objects
    let after := ((runCleanup namespace_).runAlone answerAvailable elapsed cluster).2
    (∀ key, (after.functions.find? key).map (·.content) =
        (cluster.functions.find? key).map (contentAfter now items)) ∧
      RuntimesWithout (Unneeded now items cluster) cluster after := by
  intro now items after
  have isAfter : after = retireExpired now items { cluster with clock := now } :=
    runCleanup_ends namespace_ elapsed cluster
  have stored : StoredAsListed items { cluster with clock := now } :=
    storedAsListed_inNamespace namespace_ { cluster with clock := now }
  rw [isAfter]
  apply And.intro (content_retireExpired stored)
  have without : RuntimesWithout (Unneeded now items { cluster with clock := now })
      { cluster with clock := now } (retireExpired now items { cluster with clock := now }) :=
    without_retireExpired stored fun function member =>
      namespaced function (inNamespace_subset namespace_ _ member)
  exact ⟨without.deployments, without.services⟩

/-- Two Lua functions of one project whose leases are over, with their Service. -/
def lapsedCluster : Cluster where
  functions := ((Store.empty.create ⟨"default", "one"⟩
      { luaSpec "one" true with deProvisionTime := .rfc3339 3 }).2.create ⟨"default", "two"⟩
    { luaSpec "two" true with deProvisionTime := .rfc3339 4 }).2
  deployments := Store.empty
  services := (Store.empty.create ⟨"default", "litefunctions-runtime-svc-lua-projone"⟩
    (newService ⟨⟨"default", "one"⟩, 1, luaSpec "one" true⟩)).2
  clock := 5 * second

/-- The Service is spared with the first function and removed with the second. -/
theorem cleanup_outcome_lapsed :
    let after := ((runCleanup "default").runAlone answerAvailable (fun _ => 0) lapsedCluster).2
    (∀ key, (after.functions.find? key).map (·.content) =
        (lapsedCluster.functions.find? key).map
          (contentAfter (5 * second) lapsedCluster.functions.objects)) ∧
      after.services.find? ⟨"default", "litefunctions-runtime-svc-lua-projone"⟩ = none := by
  have outcome := @cleanup_outcome "default" (fun _ => 0) lapsedCluster (by decide)
  refine ⟨outcome.1, outcome.2.services.removes _ ?_⟩
  have lapsed : ∀ function ∈ lapsedCluster.functions.objects,
      Lapsed (5 * second) lapsedCluster.functions.objects function := by decide
  refine ⟨lapsedCluster.functions.objects.head (by decide), lapsed _ (List.head_mem _), by decide, ?_⟩
  rintro ⟨-, user, ⟨member, -, notLapsed⟩, -⟩
  exact notLapsed (lapsed user member)

end Operator

end Litefunctions
