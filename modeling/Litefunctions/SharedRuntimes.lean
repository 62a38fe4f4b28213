import Litefunctions.Languages
import Litefunctions.ReconcileEffects

/-!
# Shared runtimes after attempts to reconcile

Functions of one dynamic language and project share a Deployment and a Service.
Each of them is reconciled on its own, attempts may fail at any call, and they
may come in any order.  Once the last attempt on every function has succeeded,
the shared runtime exists exactly when one of its functions is active: active
functions protect it from the deletions of the others, and without an active
function nothing creates it again.
-/

namespace Litefunctions

namespace Operator

open Program

/-! ### Names of runtimes -/

theorem tags_of_joined_eq {first second : Language} {start : String}
    {firstRest secondRest : String}
    (joined : start ++ first.tag ++ "-" ++ firstRest = start ++ second.tag ++ "-" ++ secondRest) :
    first = second ∧ firstRest = secondRest := by
  have lists := congrArg String.toList joined
  simp only [String.toList_append, List.append_assoc, List.append_cancel_left_eq] at lists
  cases first <;> cases second <;> simp [Language.tag] at lists ⊢
  all_goals exact String.toList_injective lists

/-- What follows the language in the names of a runtime. -/
def runtimeSuffix (function : Function) : String :=
  if isDynamicLanguage function.content.language then
    function.content.project
  else
    function.content.project ++ "-" ++ function.key.name

theorem keyOf_name (function : Function) (part : RuntimePart) :
    (part.keyOf function).name =
      (match part with
        | .deployment => "litefunctions-runtime-"
        | .service => "litefunctions-runtime-svc-") ++ function.content.language ++ "-" ++
          runtimeSuffix function := by
  unfold runtimeSuffix
  by_cases dynamic : isDynamicLanguage function.content.language = true
  · cases part <;> simp only [RuntimePart.keyOf, getDeploymentName, getServiceName, if_pos dynamic]
      <;> rfl
  · cases part <;>
      simp only [RuntimePart.keyOf, getDeploymentName, getServiceName, if_neg dynamic,
        ← String.append_assoc] <;> rfl

/-- A runtime of a dynamic language has the name of another function's runtime
only if both have its language and project. -/
theorem language_project_of_keyOf_eq {function other : Function} {part : RuntimePart}
    {language otherLanguage : Language} (languageEq : function.content.language = language.tag)
    (otherLanguageEq : other.content.language = otherLanguage.tag)
    (dynamic : isDynamicLanguage function.content.language = true)
    (sameKey : part.keyOf function = part.keyOf other) :
    other.content.language = function.content.language ∧
      other.content.project = function.content.project := by
  have sameName := congrArg NamespacedName.name sameKey
  rw [keyOf_name, keyOf_name, languageEq, otherLanguageEq] at sameName
  obtain ⟨rfl, sameSuffix⟩ := tags_of_joined_eq sameName
  have sameLanguage := otherLanguageEq.trans languageEq.symm
  apply And.intro sameLanguage
  unfold runtimeSuffix at sameSuffix
  rw [sameLanguage, dynamic] at sameSuffix
  exact sameSuffix.symm

/-- Functions of one dynamic language and project share their runtime. -/
theorem keyOf_eq {function other : Function} (part : RuntimePart)
    (sameNamespace : function.key.namespace_ = other.key.namespace_)
    (sameLanguage : function.content.language = other.content.language)
    (sameProject : function.content.project = other.content.project)
    (dynamic : isDynamicLanguage other.content.language = true) :
    part.keyOf function = part.keyOf other := by
  cases part <;>
    simp only [RuntimePart.keyOf, getDeploymentName, getServiceName, sameNamespace, sameLanguage,
      sameProject, if_pos dynamic]

/-! ### Attempts -/

/-- A call of `Reconcile` that the environment answers as `circumstances` say. -/
structure Attempt where
  key : NamespacedName
  circumstances : Nat → ApiCall.Circumstance

/-- The result of an attempt and the cluster after it. -/
def Attempt.run (cfg : Settings) (attempt : Attempt) (cluster : Cluster) :
    Except StoreError Unit × Cluster :=
  (reconcile cfg attempt.key).runAlone answerAlone attempt.circumstances cluster

/-- The cluster after a sequence of attempts. -/
def runAttempts (cfg : Settings) : Cluster → List Attempt → Cluster
  | cluster, [] => cluster
  | cluster, attempt :: attempts => runAttempts cfg (attempt.run cfg cluster).2 attempts

/-- The result of the last attempt on a function. -/
def lastResult (cfg : Settings) (key : NamespacedName) :
    Cluster → List Attempt → Option (Except StoreError Unit)
  | _, [] => none
  | cluster, attempt :: attempts =>
      (lastResult cfg key (attempt.run cfg cluster).2 attempts).or
        (if attempt.key = key then some (attempt.run cfg cluster).1 else none)

/-- Functions of one namespace in the languages of the portal. -/
structure OneNamespace (namespace_ : String) (functions : List Function) : Prop where
  namespaces : ∀ function ∈ functions, function.key.namespace_ = namespace_
  languages : ∀ function ∈ functions, ∃ language : Language, function.content.language = language.tag

/-- Some function with the runtime of `user` is active. -/
def SomeActive (user : Function) (functions : List Function) : Prop :=
  ∃ function ∈ functions, function.content.language = user.content.language ∧
    function.content.project = user.content.project ∧ function.content.isActive = true

/-- What an attempt may change of a function: its version and its lease. -/
def SameView (function other : Function) : Prop :=
  other.key = function.key ∧
    { other.content with deProvisionTime := .unset } =
      { function.content with deProvisionTime := .unset }

section Views

variable {function other : Function} {first second : Store NamespacedName FunctionSpec}

theorem exists_sameView (sameViews : views second = views first)
    (member : function ∈ first.objects) : ∃ other ∈ second.objects, SameView function other := by
  have viewMember : (function.key, { function.content with deProvisionTime := .unset }) ∈
      views second := by
    rw [sameViews]
    exact List.mem_map_of_mem member
  obtain ⟨other, otherMember, same⟩ := List.mem_map.mp viewMember
  obtain ⟨sameKey, sameContent⟩ := Prod.mk.inj same
  exact ⟨other, otherMember, sameKey, sameContent⟩

theorem SameView.symm (same : SameView function other) : SameView other function :=
  ⟨same.1.symm, same.2.symm⟩

theorem SameView.language (same : SameView function other) :
    other.content.language = function.content.language :=
  (FunctionSpec.mk.inj same.2).2.2.2.1

theorem SameView.project (same : SameView function other) :
    other.content.project = function.content.project := by
  have fields := FunctionSpec.mk.inj same.2
  tauto

theorem SameView.isActive (same : SameView function other) :
    other.content.isActive = function.content.isActive :=
  (FunctionSpec.mk.inj same.2).1

theorem SameView.keyOf (same : SameView function other) (part : RuntimePart) :
    part.keyOf other = part.keyOf function := by
  cases part <;>
    simp only [RuntimePart.keyOf, getDeploymentName, getServiceName, same.1, same.language,
      same.project]

theorem OneNamespace.of_views {namespace_ : String} (sameViews : views second = views first)
    (one : OneNamespace namespace_ first.objects) : OneNamespace namespace_ second.objects where
  namespaces function member := by
    obtain ⟨other, otherMember, same⟩ := exists_sameView sameViews.symm member
    rw [← same.1]
    exact one.namespaces other otherMember
  languages function member := by
    obtain ⟨other, otherMember, same⟩ := exists_sameView sameViews.symm member
    rw [← same.language]
    exact one.languages other otherMember

theorem SomeActive.of_views {user : Function} (sameViews : views second = views first)
    (some : SomeActive user first.objects) : SomeActive user second.objects := by
  obtain ⟨function, member, sameLanguage, sameProject, active⟩ := some
  obtain ⟨other, otherMember, same⟩ := exists_sameView sameViews member
  exact ⟨other, otherMember, same.language.trans sameLanguage, same.project.trans sameProject,
    same.isActive.trans active⟩

end Views

/-! ### One attempt -/

section Attempts

variable {cfg : Settings} {attempt : Attempt} {cluster : Cluster} {namespace_ : String}
variable {user : Function} {part : RuntimePart}

/-- An attempt on no function does nothing, one on an active function adds, one
on an inactive function removes. -/
theorem attempt_cases (cfg : Settings) (attempt : Attempt) (cluster : Cluster) :
    (cluster.functions.find? attempt.key = none ∧ (attempt.run cfg cluster).2 = cluster) ∨
      ∃ function ∈ cluster.functions.objects, attempt.key = function.key ∧
        ((function.content.isActive = true ∧ Adds function cluster (attempt.run cfg cluster).2 ∧
            ((attempt.run cfg cluster).1 = .ok () →
              ∀ part, (attempt.run cfg cluster).2.Has part (part.keyOf function))) ∨
          (function.content.isActive = false ∧
            Removes function cluster (attempt.run cfg cluster).2 ∧
            (inUse function cluster.functions = true → (attempt.run cfg cluster).2 = cluster) ∧
            (inUse function cluster.functions = false → (attempt.run cfg cluster).1 = .ok () →
              ∀ part, ¬ (attempt.run cfg cluster).2.Has part (part.keyOf function)))) := by
  obtain ⟨key, circumstances⟩ := attempt
  cases found : cluster.functions.find? key with
  | none =>
      exact .inl ⟨rfl, (reconcile_ends_of_absent cfg found).ends circumstances⟩
  | some function =>
      right
      obtain rfl := Store.key_of_find?_eq_some found
      refine ⟨function, Store.mem_of_find?_eq_some found, rfl, ?_⟩
      cases active : function.content.isActive with
      | true => exact .inl ⟨rfl, (reconcile_ends_of_active cfg found active).ends circumstances⟩
      | false => exact .inr ⟨rfl, (reconcile_ends_of_inactive cfg found active).ends circumstances⟩

theorem attempt_views (cfg : Settings) (attempt : Attempt) (cluster : Cluster) :
    views (attempt.run cfg cluster).2.functions = views cluster.functions := by
  rcases attempt_cases cfg attempt cluster with
    ⟨-, same⟩ | ⟨function, -, -, ⟨-, adds, -⟩ | ⟨-, removes, -⟩⟩
  · rw [same]
  · exact adds.functions
  · rw [removes.functions]

/-- A shared runtime is in use where one of its functions is active. -/
theorem inUse_iff {store : Store NamespacedName FunctionSpec} {function : Function}
    (one : OneNamespace namespace_ store.objects) (member : function ∈ store.objects)
    (inactive : function.content.isActive = false)
    (dynamic : isDynamicLanguage function.content.language = true) :
    inUse function store = true ↔ SomeActive function store.objects := by
  have all : inNamespace function.key.namespace_ store.objects = store.objects := by
    unfold inNamespace
    split
    · rfl
    · apply List.filter_eq_self.mpr
      intro other otherMember
      simp [one.namespaces other otherMember, one.namespaces function member]
  unfold inUse SomeActive
  rw [all, dynamic, Bool.true_and, List.any_eq_true]
  refine exists_congr fun other => and_congr_right fun otherMember => ?_
  simp only [sharesRuntime, Bool.and_eq_true, decide_eq_true_eq]
  constructor
  · rintro ⟨⟨-, sameProject, sameLanguage⟩, active⟩
    exact ⟨sameLanguage, sameProject, active⟩
  · rintro ⟨sameLanguage, sameProject, active⟩
    refine ⟨⟨fun sameName => ?_, sameProject, sameLanguage⟩, active⟩
    have sameKey : other.key = function.key := by
      have sameNamespace := (one.namespaces other otherMember).trans
        (one.namespaces function member).symm
      exact (NamespacedName.mk.injEq _ _ _ _).mpr ⟨sameNamespace, sameName⟩
    obtain rfl := Store.eq_of_mem_of_key_eq otherMember member sameKey
    exact absurd (active.symm.trans inactive) (by simp)

/-- While one of its functions is active, no attempt removes a shared runtime. -/
theorem has_of_someActive (one : OneNamespace namespace_ cluster.functions.objects)
    (known : ∃ language : Language, user.content.language = language.tag)
    (dynamic : isDynamicLanguage user.content.language = true)
    (active : SomeActive user cluster.functions.objects)
    (has : cluster.Has part (part.keyOf user)) :
    (attempt.run cfg cluster).2.Has part (part.keyOf user) := by
  rcases attempt_cases cfg attempt cluster with
    ⟨-, same⟩ | ⟨function, functionMember, -, ⟨-, adds, -⟩ | ⟨inactive, removes, inUseKeeps, -⟩⟩
  · rw [same]
    exact has
  · exact adds.keeps part _ has
  · rcases removes.others part _ has with sameKey | kept
    · obtain ⟨language, languageEq⟩ := known
      obtain ⟨otherLanguage, otherLanguageEq⟩ := one.languages function functionMember
      obtain ⟨sameLanguage, sameProject⟩ :=
        language_project_of_keyOf_eq languageEq otherLanguageEq dynamic sameKey
      have activeToo : SomeActive function cluster.functions.objects := by
        unfold SomeActive
        rw [sameLanguage, sameProject]
        exact active
      have used := (inUse_iff one functionMember inactive (sameLanguage ▸ dynamic)).mpr activeToo
      rw [inUseKeeps used]
      exact has
    · exact kept

/-- While none of its functions is active, no attempt creates a shared runtime. -/
theorem not_has_of_not_someActive (one : OneNamespace namespace_ cluster.functions.objects)
    (known : ∃ language : Language, user.content.language = language.tag)
    (dynamic : isDynamicLanguage user.content.language = true)
    (noneActive : ¬ SomeActive user cluster.functions.objects)
    (absent : ¬ cluster.Has part (part.keyOf user)) :
    ¬ (attempt.run cfg cluster).2.Has part (part.keyOf user) := by
  rcases attempt_cases cfg attempt cluster with
    ⟨-, same⟩ | ⟨function, functionMember, -, ⟨active, adds, -⟩ | ⟨-, removes, -⟩⟩
  · exact same.symm ▸ absent
  · intro has
    rcases adds.others part _ has with sameKey | had
    · obtain ⟨language, languageEq⟩ := known
      obtain ⟨otherLanguage, otherLanguageEq⟩ := one.languages function functionMember
      obtain ⟨sameLanguage, sameProject⟩ :=
        language_project_of_keyOf_eq languageEq otherLanguageEq dynamic sameKey
      exact noneActive ⟨function, functionMember, sameLanguage, sameProject, active⟩
    · exact absent had
  · exact fun has => absent (removes.had part _ has)

/-- The attempt on a stored function, as `attempt_cases` says. -/
theorem attempt_of_mem {function : Function} (member : function ∈ cluster.functions.objects)
    (sameKey : attempt.key = function.key) (succeeded : (attempt.run cfg cluster).1 = .ok ()) :
    (function.content.isActive = true ∧
        ∀ part, (attempt.run cfg cluster).2.Has part (part.keyOf function)) ∨
      (function.content.isActive = false ∧
        (inUse function cluster.functions = false →
          ∀ part, ¬ (attempt.run cfg cluster).2.Has part (part.keyOf function))) := by
  rcases attempt_cases cfg attempt cluster with
    ⟨absent, -⟩ | ⟨other, otherMember, otherKey, attempted⟩
  · rw [sameKey, Store.find?_key_of_mem member] at absent
    cases absent
  · obtain rfl := Store.eq_of_mem_of_key_eq otherMember member (otherKey.symm.trans sameKey)
    rcases attempted with ⟨active, -, parts⟩ | ⟨inactive, -, -, noParts⟩
    · exact .inl ⟨active, parts succeeded⟩
    · exact .inr ⟨inactive, fun unused => noParts unused succeeded⟩

end Attempts

/-! ### Sequences of attempts -/

section Sequences

variable {cfg : Settings} {key : NamespacedName} {holds : Cluster → Prop}

theorem views_runAttempts (cfg : Settings) (attempts : List Attempt) (cluster : Cluster) :
    views (runAttempts cfg cluster attempts).functions = views cluster.functions := by
  induction attempts generalizing cluster with
  | nil => rfl
  | cons attempt attempts ih => exact (ih _).trans (attempt_views cfg attempt cluster)

/-- What every attempt keeps holds at the end if it held at the start. -/
theorem holds_of_runAttempts (valid : List (NamespacedName × FunctionSpec))
    (keeps : ∀ attempt cluster, views cluster.functions = valid → holds cluster →
      holds (Attempt.run cfg attempt cluster).2) (attempts : List Attempt) {cluster : Cluster}
    (isValid : views cluster.functions = valid) (start : holds cluster) :
    holds (runAttempts cfg cluster attempts) := by
  induction attempts generalizing cluster with
  | nil => exact start
  | cons attempt attempts ih =>
      exact ih ((attempt_views cfg attempt cluster).trans isValid)
        (keeps attempt cluster isValid start)

/-- What every attempt keeps and a successful attempt on `key` establishes
holds at the end if the last attempt on `key` succeeded. -/
theorem holds_of_lastResult (valid : List (NamespacedName × FunctionSpec))
    (keeps : ∀ attempt cluster, views cluster.functions = valid → holds cluster →
      holds (Attempt.run cfg attempt cluster).2)
    (establishes : ∀ attempt cluster, views cluster.functions = valid → attempt.key = key →
      (Attempt.run cfg attempt cluster).1 = .ok () → holds (Attempt.run cfg attempt cluster).2)
    (attempts : List Attempt) {cluster : Cluster} (isValid : views cluster.functions = valid)
    (completed : lastResult cfg key cluster attempts = some (.ok ())) :
    holds (runAttempts cfg cluster attempts) := by
  induction attempts generalizing cluster with
  | nil => cases completed
  | cons attempt attempts ih =>
      have validAfter := (attempt_views cfg attempt cluster).trans isValid
      rw [lastResult] at completed
      cases later : lastResult cfg key (attempt.run cfg cluster).2 attempts with
      | some result =>
          rw [later] at completed
          exact ih validAfter (later.trans completed)
      | none =>
          rw [later] at completed
          have isLast : attempt.key = key ∧ (attempt.run cfg cluster).1 = .ok () := by
            simpa using completed
          exact holds_of_runAttempts valid keeps attempts validAfter
            (establishes attempt cluster isValid isLast.1 isLast.2)

end Sequences

/-- Once the last attempt on every function has succeeded, a shared Deployment
and a shared Service exist exactly when one of their functions is active. -/
theorem shared_runtime_exists_iff (cfg : Settings) (cluster : Cluster) (attempts : List Attempt)
    (namespace_ : String) (one : OneNamespace namespace_ cluster.functions.objects)
    (completed : ∀ function ∈ cluster.functions.objects,
      lastResult cfg function.key cluster attempts = some (.ok ()))
    (user : Function) (member : user ∈ cluster.functions.objects)
    (dynamic : isDynamicLanguage user.content.language = true) (part : RuntimePart) :
    (runAttempts cfg cluster attempts).Has part (part.keyOf user) ↔
      SomeActive user (runAttempts cfg cluster attempts).functions.objects := by
  have known := one.languages user member
  have finalViews := views_runAttempts cfg attempts cluster
  by_cases active : SomeActive user cluster.functions.objects
  · refine iff_of_true ?_ (active.of_views finalViews)
    obtain ⟨function, functionMember, sameLanguage, sameProject, isActive⟩ := id active
    refine @holds_of_lastResult cfg function.key (fun last => last.Has part (part.keyOf user))
      (views cluster.functions) (fun attempt other isValid has => ?_)
      (fun attempt other isValid sameKey succeeded => ?_) attempts cluster rfl
      (completed function functionMember)
    · exact has_of_someActive (one.of_views isValid) known dynamic (active.of_views isValid) has
    · obtain ⟨stored, storedMember, same⟩ := exists_sameView isValid functionMember
      rcases attempt_of_mem storedMember (sameKey.trans same.1.symm) succeeded with
        ⟨-, parts⟩ | ⟨inactive, -⟩
      · have sameNamespace := (one.namespaces function functionMember).trans
          (one.namespaces user member).symm
        have keyEq := keyOf_eq part sameNamespace sameLanguage sameProject dynamic
        exact keyEq ▸ same.keyOf part ▸ parts part
      · exact absurd (inactive.symm.trans (same.isActive.trans isActive)) (by simp)
  · refine iff_of_false ?_ fun activeLater => active (activeLater.of_views finalViews.symm)
    refine @holds_of_lastResult cfg user.key (fun last => ¬ last.Has part (part.keyOf user))
      (views cluster.functions) (fun attempt other isValid absent => ?_)
      (fun attempt other isValid sameKey succeeded => ?_) attempts cluster rfl
      (completed user member)
    · exact not_has_of_not_someActive (one.of_views isValid) known dynamic
        (fun activeThere => active (activeThere.of_views isValid.symm)) absent
    · obtain ⟨stored, storedMember, same⟩ := exists_sameView isValid member
      have noneThere : ¬ SomeActive stored other.functions.objects := by
        unfold SomeActive
        rw [same.language, same.project]
        exact fun activeThere => active (SomeActive.of_views isValid.symm activeThere)
      rcases attempt_of_mem storedMember (sameKey.trans same.1.symm) succeeded with
        ⟨isActive, -⟩ | ⟨inactive, noParts⟩
      · exact absurd ⟨stored, storedMember, rfl, rfl, isActive⟩ noneThere
      · have unused : inUse stored other.functions = false := by
          rw [← Bool.not_eq_true, inUse_iff (one.of_views isValid) storedMember inactive
            (same.language ▸ dynamic)]
          exact noneThere
        exact same.keyOf part ▸ noParts unused part

/-! ### Two functions of one runtime -/

def luaSpec (name : String) (isActive : Bool) : FunctionSpec where
  isActive := isActive
  isAsync := false
  deProvisionTime := .unset
  language := "lua"
  name := name
  method := ""
  project := "projone"
  gitCreds := ""

/-- An active and an inactive Lua function of one project. -/
def luaCluster : Cluster where
  functions := ((Store.empty.create ⟨"default", "one"⟩ (luaSpec "one" true)).2.create
    ⟨"default", "two"⟩ (luaSpec "two" false)).2
  deployments := Store.empty
  services := Store.empty
  clock := 0

/-- The first attempt on the active function stops at its third call. -/
def luaAttempts : List Attempt :=
  [⟨⟨"default", "one"⟩, fun index => ⟨index = 2, 0⟩⟩, ⟨⟨"default", "two"⟩, fun _ => ⟨false, 0⟩⟩,
    ⟨⟨"default", "one"⟩, fun _ => ⟨false, 0⟩⟩, ⟨⟨"default", "two"⟩, fun _ => ⟨false, 0⟩⟩]

/-- The active function keeps the shared Service. -/
theorem lua_service_exists_iff :
    (runAttempts defaultSettings luaCluster luaAttempts).Has .service
        (RuntimePart.service.keyOf ⟨⟨"default", "one"⟩, 1, luaSpec "one" true⟩) ↔
      SomeActive ⟨⟨"default", "one"⟩, 1, luaSpec "one" true⟩
        (runAttempts defaultSettings luaCluster luaAttempts).functions.objects :=
  shared_runtime_exists_iff defaultSettings luaCluster luaAttempts "default"
    ⟨by decide, by
      intro function member
      apply Exists.intro .lua
      revert function
      decide⟩
    (by decide) ⟨⟨"default", "one"⟩, 1, luaSpec "one" true⟩ (by decide) (by decide) .service

end Operator

end Litefunctions
