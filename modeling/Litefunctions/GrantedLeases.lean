import Litefunctions.Agreements
import Litefunctions.StaleReads

/-!
# Leases that only grow

The server and the controller of the operator grant leases from their own
readings of the clock.  A writer reads the object before the clock and is
refused when another one wrote in between, so later leases end later, as long
as all take the same duration.  They do when the configured one is positive.
-/

namespace Litefunctions

namespace DeProvisionTime

/-- Where the first lease names an instant, the second one names no earlier
instant. -/
def LastsUntil (lease later : DeProvisionTime) : Prop :=
  ∀ instant, lease.parse = some instant →
    ∃ laterInstant, later.parse = some laterInstant ∧ instant ≤ laterInstant

/-- The lease ends at `limit` at the latest. -/
def EndsBy (limit : Int) (lease : DeProvisionTime) : Prop :=
  ∀ instant, lease.parse = some instant → instant ≤ limit

theorem LastsUntil.refl (lease : DeProvisionTime) : lease.LastsUntil lease :=
  fun instant parsed => ⟨instant, parsed, Int.le_refl _⟩

theorem EndsBy.mono {first second : Int} {lease : DeProvisionTime} (endsBy : lease.EndsBy first)
    (le : first ≤ second) : lease.EndsBy second :=
  fun instant parsed => Int.le_trans (endsBy instant parsed) le

theorem endsBy_format (time : Int) : (format time).EndsBy time := by
  intro instant parsed
  obtain ⟨formatted, formattedParsed, le, -⟩ := parse_format time
  obtain rfl := Option.some.inj (formattedParsed.symm.trans parsed)
  exact le

/-- A formatted time is the last whole second, so whole seconds up to a time
are not after it. -/
theorem EndsBy.lastsUntil_format {limit : Int} {lease : DeProvisionTime}
    (endsBy : lease.EndsBy limit) : lease.LastsUntil (format limit) := by
  intro instant parsed
  have bounded := endsBy instant parsed
  cases lease with
  | unset => cases parsed
  | malformed text => cases parsed
  | rfc3339 unixSeconds =>
      obtain rfl := Option.some.inj parsed
      refine ⟨limit / second * second, rfl, ?_⟩
      unfold second at bounded ⊢
      omega

end DeProvisionTime

namespace Operator

open Program Agreement

/-! ### What the writers promise each other -/

/-- A task of an operator with this `KEEP_WARM_DURATION`. -/
def Task.KeepsWarmFor (keepWarmDuration : Int) : Task → Prop
  | .activate duration _ _ => duration = keepWarmDuration
  | .getStatus duration _ _ => duration = keepWarmDuration
  | .reconcile cfg _ => cfg.keepWarmDuration = keepWarmDuration
  | _ => True

def Job.KeepsWarmFor (keepWarmDuration : Int) : Job → Prop
  | .runTask task => task.KeepsWarmFor keepWarmDuration
  | .markInactive _ _ => True

/-- No lease ends later than one that is granted now. -/
def GrantedFor (duration : Int) (history : ClusterHistory) : Prop :=
  ∀ past ∈ history.versions, ∀ key function, past.functions.find? key = some function →
    function.content.deProvisionTime.EndsBy (history.current.clock + duration)

/-- An update of the stored object keeps its lease or grants a later one. -/
def Extends (duration : Int) (call : ApiCall) (history : ClusterHistory) : Prop :=
  match call with
  | .functions (.update object) =>
      object.content.deProvisionTime.EndsBy (history.current.clock + duration) ∧
        ∀ stored, history.current.functions.find? object.key = some stored →
          stored.version = object.version →
            stored.content.deProvisionTime.LastsUntil object.content.deProvisionTime
  | .functions (.create _ spec) => spec.deProvisionTime = .unset
  | .functions (.delete _) => False
  | _ => True

/-- The clock does not go back and objects get new versions. -/
def GoesOn (before after : ClusterHistory) : Prop :=
  before.current.clock ≤ after.current.clock ∧
    Store.Evolves before.current.functions after.current.functions

variable {Pid : Type}

/-- All writers grant leases of the same duration. -/
def leaseAgreement (Pid : Type) (duration : Int) : Agreement Pid ApiCall ClusterHistory where
  invariant := GrantedFor duration
  rely _ := GoesOn
  allowed _ := Extends duration
  assumed _ _ _ := True
  rely_refl _ _ := ⟨Int.le_refl _, .refl _⟩
  rely_trans _ _ _ _ relied more := ⟨Int.le_trans relied.1 more.1, relied.2.trans more.2⟩

theorem clock_le_of_answer (unavailable : Bool) (elapsed : Nat) (call : ApiCall)
    (cluster : Cluster) : cluster.clock ≤ (call.answer unavailable elapsed cluster).2.clock := by
  cases call with
  | now => exact Int.le_add_of_nonneg_right (Int.natCast_nonneg elapsed)
  | _ =>
      simp only [ApiCall.answer]
      split <;> exact Int.le_refl _

section Steps

variable {duration : Int} {call : ApiCall} {response : call.Response}
variable {circumstance : StaleCircumstance} {before after : ClusterHistory}

theorem goesOn_of_executed
    (executed : call.executeStale circumstance before = some (response, after)) :
    GoesOn before after := by
  refine ⟨?_, executeStale_evolves executed⟩
  rcases executeStale_cases executed with ⟨-, rfl⟩ | ⟨-, answered⟩
  · exact Int.le_refl _
  · have clockLe := clock_le_of_answer circumstance.unavailable circumstance.elapsed call
      before.current
    rw [Option.some.inj answered] at clockLe
    exact clockLe

end Steps

/-- A stored function keeps its lease or gets one that lasts as long; a lease
that is new ends by `limit`. -/
def Relets (limit : Int) (before after : Option Function) : Prop :=
  after = before ∨ ∃ new, after = some new ∧
    (∀ old, before = some old →
      old.content.deProvisionTime.LastsUntil new.content.deProvisionTime) ∧
    (new.content.deProvisionTime.EndsBy limit ∨
      ∃ old, before = some old ∧ new.content.deProvisionTime = old.content.deProvisionTime)

/-- What an accepted call that extends leases does to each object. -/
theorem relets_of_execute {duration : Int} {history : ClusterHistory} {call : FunctionCall}
    {value : call.Value} {after : Store NamespacedName FunctionSpec}
    (extends_ : Extends duration (.functions call) history)
    (answered : call.execute FunctionPatch.apply history.current.functions = (.ok value, after))
    (key : NamespacedName) :
    Relets (history.current.clock + duration) (history.current.functions.find? key)
      (after.find? key) := by
  have storing {target : NamespacedName} {written : Function}
      (stores : ∀ other, after.find? other =
        if other = target then some written else history.current.functions.find? other)
      (relets : Relets (history.current.clock + duration)
        (history.current.functions.find? target) (some written)) :
      Relets (history.current.clock + duration) (history.current.functions.find? key)
        (after.find? key) := by
    by_cases sameKey : key = target
    · rw [stores, if_pos sameKey, sameKey]
      exact relets
    · exact .inl (by rw [stores, if_neg sameKey])
  cases call with
  | get other => exact .inl (by rw [(StoreCall.execute_get_eq_ok answered).2])
  | list => exact .inl (by rw [(StoreCall.execute_list_eq_ok answered).2])
  | create target spec =>
      obtain ⟨absent, contentEq, stores⟩ := Store.create_eq_ok answered
      have unset : spec.deProvisionTime = .unset := extends_
      refine storing stores (.inr ⟨_, rfl, by simp [absent], .inl fun instant parsed => ?_⟩)
      rw [contentEq, unset] at parsed
      cases parsed
  | update object =>
      obtain ⟨stored, found, sameVersion, contentEq, stores⟩ := Store.update_eq_ok answered
      refine storing stores (.inr ⟨_, rfl, fun old oldFound => ?_, .inl (contentEq ▸ extends_.1)⟩)
      obtain rfl := Option.some.inj (found.symm.trans oldFound)
      rw [contentEq]
      exact extends_.2 stored found sameVersion
  | patch target patch =>
      obtain ⟨stored, found, contentEq, -, stores⟩ := Store.patch_eq_ok answered
      have sameLease {written : Function} (contentEq : written.content = patch.apply stored.content) :
          written.content.deProvisionTime = stored.content.deProvisionTime := by
        rw [contentEq]
        rfl
      refine storing stores (.inr ⟨_, rfl, fun old oldFound => ?_,
        .inr ⟨stored, found, sameLease contentEq⟩⟩)
      obtain rfl := Option.some.inj (found.symm.trans oldFound)
      rw [sameLease contentEq]
      exact .refl _
  | delete target => exact absurd extends_ id

section Steps

variable {duration : Int} {call : ApiCall} {response : call.Response}
variable {circumstance : StaleCircumstance} {before after : ClusterHistory}

theorem relets_of_executed (extends_ : Extends duration call before)
    (executed : call.executeStale circumstance before = some (response, after))
    (key : NamespacedName) :
    Relets (before.current.clock + duration) (before.current.functions.find? key)
      (after.current.functions.find? key) := by
  rcases executeStale_cases executed with ⟨-, rfl⟩ | ⟨-, answered⟩
  · exact .inl rfl
  · by_cases accepted : ∃ (functionCall : FunctionCall) (value : functionCall.Value),
        (⟨call, response⟩ : Answered ApiCall ApiCall.Response) =
          ⟨.functions functionCall, Except.ok value⟩
    · obtain ⟨functionCall, value, answeredEq⟩ := accepted
      cases answeredEq
      exact relets_of_execute extends_ (execute_functions answered) key
    · rw [execute_functions_eq call circumstance.toCircumstance answered
        fun functionCall value answeredEq => accepted ⟨functionCall, value, answeredEq⟩]
      exact .inl rfl

theorem versions_of_executed
    (executed : call.executeStale circumstance before = some (response, after)) :
    ∀ past ∈ after.versions, past = after.current ∨ past ∈ before.versions := by
  intro past member
  unfold ApiCall.executeStale at executed
  split at executed
  · obtain ⟨-, rfl⟩ := Prod.mk.inj (Option.some.inj executed)
    exact .inr member
  · obtain ⟨-, rfl⟩ := Prod.mk.inj (Option.some.inj executed)
    exact List.mem_cons.mp member

theorem grantedFor_of_executed (granted : GrantedFor duration before)
    (extends_ : Extends duration call before)
    (executed : call.executeStale circumstance before = some (response, after)) :
    GrantedFor duration after := by
  have later : before.current.clock + duration ≤ after.current.clock + duration :=
    Int.add_le_add_right (goesOn_of_executed executed).1 duration
  intro past member key function found
  rcases versions_of_executed executed past member with rfl | earlier
  · have stored {old : Function} (oldFound : before.current.functions.find? key = some old) :=
      granted before.current List.mem_cons_self key old oldFound
    rcases relets_of_executed extends_ executed key with same | ⟨new, newFound, -, endsBy⟩
    · exact (stored (same ▸ found)).mono later
    · obtain rfl := Option.some.inj (newFound.symm.trans found)
      rcases endsBy with endsBy | ⟨old, oldFound, sameLease⟩
      · exact endsBy.mono later
      · rw [sameLease]
        exact (stored oldFound).mono later
  · exact (granted past earlier key function found).mono later

end Steps

theorem leaseAgreement_kept (duration : Int) :
    (leaseAgreement Pid duration).Kept ApiCall.executeStale := by
  intro pid request circumstance response before after granted extends_ _ executed
  exact ⟨grantedFor_of_executed granted extends_ executed, fun _ _ => goesOn_of_executed executed⟩

/-! ### What each job grants -/

/-- The calls that neither grant a lease nor make or remove a function. -/
def leavesLeases : ApiCall → Bool
  | .functions (.update _) | .functions (.create _ _) | .functions (.delete _) => false
  | _ => true

theorem extends_of_leavesLeases {duration : Int} {call : ApiCall} (history : ClusterHistory)
    (leaves : leavesLeases call = true) : Extends duration call history := by
  cases call with
  | functions call =>
      cases call with
      | update _ | create _ _ | delete _ => cases leaves
      | _ => trivial
  | _ => trivial

abbrev LeavesLeases {Result : Type} (program : ApiProgram Result) : Prop :=
  program.Makes fun call => leavesLeases call = true

theorem hasOtherActive_leavesLeases (function : Function) :
    LeavesLeases (hasOtherActiveFunctionUsingSharedRuntime function) := by
  unfold hasOtherActiveFunctionUsingSharedRuntime
  split
  · trivial
  · apply And.intro rfl
    intro response
    cases response <;> trivial

theorem deleteDeployment_leavesLeases (key : NamespacedName) :
    LeavesLeases (deleteDeployment key) := by
  apply And.intro rfl
  intro response
  cases response with
  | error err => trivial
  | ok existing => exact ⟨rfl, fun _ => trivial⟩

theorem deleteService_leavesLeases (key : NamespacedName) : LeavesLeases (deleteService key) := by
  apply And.intro rfl
  intro response
  cases response with
  | error err => trivial
  | ok existing => exact ⟨rfl, fun _ => trivial⟩

theorem deleteRuntime_leavesLeases (function : Function) :
    LeavesLeases (deleteRuntime function) := by
  apply (hasOtherActive_leavesLeases function).bind
  intro shared
  rcases shared with err | _ | _
  · trivial
  · apply (deleteDeployment_leavesLeases _).bind
    intro deleted
    cases deleted with
    | error err => trivial
    | ok _ => exact deleteService_leavesLeases _
  · trivial

theorem createOrUpdateDeployment_leavesLeases (cfg : Settings) (function : Function) :
    LeavesLeases (createOrUpdateDeployment cfg function) := by
  apply And.intro rfl
  intro response
  rcases response with (_ | _ | _ | _) | _
  all_goals first | trivial | exact ⟨rfl, fun _ => trivial⟩

theorem createOrUpdateService_leavesLeases (function : Function) :
    LeavesLeases (createOrUpdateService function) := by
  apply And.intro rfl
  intro response
  rcases response with (_ | _ | _ | _) | _
  all_goals first | trivial | exact ⟨rfl, fun _ => trivial⟩

theorem deactivate_leavesLeases (function : Function) : LeavesLeases (deactivate function) := by
  apply And.intro rfl
  intro response
  apply (hasOtherActive_leavesLeases _).bind
  intro shared
  rcases shared with err | _ | _
  · trivial
  · apply (deleteDeployment_leavesLeases _).bind
    intro _
    exact (deleteService_leavesLeases _).bind fun _ => trivial
  · trivial

theorem cleanupFunctions_leavesLeases (now : Int) (items : List Function) :
    LeavesLeases (cleanupFunctions now items) := by
  induction items with
  | nil => trivial
  | cons function items ih =>
      have one : LeavesLeases (cleanupFunction now function) := by
        unfold cleanupFunction
        split
        · split
          · trivial
          · split
            · exact deactivate_leavesLeases function
            · trivial
        · trivial
      exact one.bind fun _ => ih

theorem runCleanup_leavesLeases (namespace_ : String) : LeavesLeases (runCleanup namespace_) := by
  apply And.intro rfl
  intro response
  cases response with
  | error err => trivial
  | ok items =>
      apply And.intro rfl
      intro now
      exact (cleanupFunctions_leavesLeases now _).bind fun _ => trivial

/-- The object was stored at some time, with a lease that ends before one that
is granted now. -/
structure Known (duration : Int) (read : Function) (history : ClusterHistory) : Prop where
  stored : ∃ past : Store NamespacedName FunctionSpec, past.find? read.key = some read ∧
    Store.Evolves past history.current.functions
  granted : read.content.deProvisionTime.EndsBy (history.current.clock + duration)

section Jobs

variable {pid : Pid} {duration : Int} {history before after : ClusterHistory}

/-- A program of the process secures the agreement. -/
abbrev GrantsFor {Result : Type} (pid : Pid) (duration : Int) (program : ApiProgram Result)
    (history : ClusterHistory) (post : Result → ClusterHistory → Prop) : Prop :=
  (leaseAgreement Pid duration).Secures ApiCall.executeStale pid post program history

theorem Known.goesOn {read : Function} (known : Known duration read before)
    (goesOn : GoesOn before after) : Known duration read after := by
  obtain ⟨past, found, evolves⟩ := known.stored
  exact ⟨⟨past, found, evolves.trans goesOn.2⟩,
    known.granted.mono (Int.add_le_add_right goesOn.1 duration)⟩

/-- What is known of an object that was read stays known. -/
theorem LeavesLeases.keeps_known {Result : Type} {program : ApiProgram Result}
    (leaves : LeavesLeases program) {read : Function} (known : Known duration read history) :
    GrantsFor pid duration program history fun _ after => Known duration read after :=
  secures_of_makes leaves (fun _ before => extends_of_leavesLeases before)
    (fun goesOn known => known.goesOn goesOn)
    (fun _ executed known => known.goesOn (goesOn_of_executed executed)) known

theorem LeavesLeases.grants {Result : Type} {program : ApiProgram Result}
    (leaves : LeavesLeases program) :
    GrantsFor pid duration program history fun _ _ => True :=
  secures_of_makes leaves (fun _ before => extends_of_leavesLeases before) (fun _ => id)
    (fun _ _ => id) trivial

theorem known_of_executed {key : NamespacedName} {read : Function}
    {circumstance : StaleCircumstance} (granted : GrantedFor duration before)
    (executed : (ApiCall.functions (.get key)).executeStale circumstance before =
      some (.ok read, after)) : Known duration read after := by
  rcases executeStale_cases executed with ⟨wasRead, rfl⟩ | ⟨notRead, -⟩
  · have found := found_of_readStale wasRead
    refine ⟨⟨_, ?_, after.seen_evolves circumstance.version⟩, ?_⟩
    · rw [Store.key_of_find?_eq_some found]
      exact found
    · exact granted _ (after.seen_mem _) key read found
  · cases notRead

theorem getFunction_grants (namespace_ name : String) :
    GrantsFor pid duration (getFunction namespace_ name) history
      fun result after => ∀ function, result = .ok function → Known duration function after := by
  intro before _ granted
  apply And.intro trivial
  intro _ circumstance response after executed
  cases response with
  | error err => exact fun _ _ _ _ isOk => by cases isOk
  | ok function =>
      intro later goesOn _ other isOk
      obtain rfl := Except.ok.inj isOk
      exact (known_of_executed granted executed).goesOn goesOn

/-- Reading the clock and then updating an object that was read grants a lease
that lasts at least as long as the stored one. -/
theorem renewal_grants {Result : Type} {read : Function} (object : Function)
    (known : Known duration read history) (keyEq : object.key = read.key)
    (versionEq : object.version = read.version)
    {next : Int → Except StoreError Function → ApiProgram Result}
    (rest : ∀ now response history,
      GrantsFor pid duration (next now response) history fun _ _ => True) :
    GrantsFor pid duration
      (.call .now fun now => .call (.functions (.update (object.withLease (now + duration)))) (next now))
      history fun _ _ => True := by
  intro before goesOn _
  apply And.intro trivial
  intro _ circumstance now between executed
  have knownThen := (known.goesOn goesOn).goesOn (goesOn_of_executed executed)
  obtain ⟨rfl, rfl⟩ := Prod.mk.inj (Option.some.inj executed)
  intro later goesOn _
  have knownLater := knownThen.goesOn goesOn
  refine ⟨⟨?_, fun stored found sameVersion => ?_⟩, fun _ _ response after _ => rest _ response after⟩
  · exact (DeProvisionTime.endsBy_format _).mono (Int.add_le_add_right goesOn.1 duration)
  · obtain ⟨past, readFound, evolves⟩ := knownLater.stored
    obtain rfl : stored = read := evolves.eq_of_version_eq readFound
      (by rw [← keyEq]; exact found) (sameVersion.trans versionEq)
    exact knownThen.granted.lastsUntil_format

theorem markFunctionActive_grants (namespace_ name : String) :
    GrantsFor pid duration (markFunctionActive namespace_ name duration) history
      fun _ _ => True := by
  refine ((getFunction_grants namespace_ name).imp fun result after known => ?_).bind
  cases result with
  | error err => exact fun _ _ _ => trivial
  | ok function =>
      apply renewal_grants (function.setActive true) (known function rfl) rfl rfl
      rintro now (err | updated) later <;> exact fun _ _ _ => trivial

theorem extendFunctionLease_grants (namespace_ name : String) :
    GrantsFor pid duration (extendFunctionLease namespace_ name duration) history
      fun _ _ => True := by
  refine ((getFunction_grants namespace_ name).imp fun result after known => ?_).bind
  cases result with
  | error err => exact fun _ _ _ => trivial
  | ok function =>
      simp only
      split
      · exact fun _ _ _ => trivial
      · apply renewal_grants function (known function rfl) rfl rfl
        rintro now (err | updated) later <;> exact fun _ _ _ => trivial

theorem activate_grants (keepWarmDuration : Int) (namespace_ name : String) :
    GrantsFor pid (keepWarm keepWarmDuration) (activate keepWarmDuration namespace_ name) history
      fun _ _ => True := by
  unfold activate
  split
  · exact fun _ _ _ => trivial
  · refine ((markFunctionActive_grants namespace_ name).imp fun result after _ => ?_).bind
    cases result <;> exact fun _ _ _ => trivial

theorem getStatus_grants (keepWarmDuration : Int) (namespace_ name : String) :
    GrantsFor pid (keepWarm keepWarmDuration) (getStatus keepWarmDuration namespace_ name) history
      fun _ _ => True := by
  unfold getStatus
  split
  · exact fun _ _ _ => trivial
  · have checks : LeavesLeases (isFunctionActive namespace_ name) := by
      apply And.intro rfl
      intro response
      cases response <;> trivial
    refine (checks.grants.imp fun result after _ => ?_).bind
    rcases result with err | _ | _
    · exact fun _ _ _ => trivial
    · exact fun _ _ _ => trivial
    · refine ((extendFunctionLease_grants namespace_ name).imp fun result after _ => ?_).bind
      cases result <;> exact fun _ _ _ => trivial

theorem reconcile_grants (cfg : Settings) (key : NamespacedName) :
    GrantsFor pid cfg.keepWarmDuration (reconcile cfg key) history fun _ _ => True := by
  intro before _ granted
  apply And.intro trivial
  intro _ circumstance response after executed
  cases response with
  | error err => exact fun _ _ _ => trivial
  | ok function =>
      have known := known_of_executed granted executed
      show GrantsFor pid cfg.keepWarmDuration (if _ then _ else _) after fun _ _ => True
      split
      · exact (deleteRuntime_leavesLeases function).grants
      · refine (((createOrUpdateDeployment_leavesLeases cfg function).keeps_known known).imp
          fun deployed after known => ?_).bind
        cases deployed with
        | error err => exact fun _ _ _ => trivial
        | ok _ =>
            refine (((createOrUpdateService_leavesLeases function).keeps_known known).imp
              fun served after known => ?_).bind
            cases served with
            | error err => exact fun _ _ _ => trivial
            | ok _ =>
                apply renewal_grants function known rfl rfl
                intro now response later
                exact fun _ _ _ => trivial

theorem createFunction_grants (req : CreateFunctionRequest) :
    GrantsFor pid duration (createFunction req) history fun _ _ => True := by
  unfold createFunction
  split
  · exact fun _ _ _ => trivial
  · intro before _ _
    apply And.intro trivial
    intro _ circumstance response after _
    rcases response with (_ | _ | _ | _) | _
    · intro before _ _
      apply And.intro rfl
      intro _ circumstance created after _
      cases created <;> exact fun _ _ _ => trivial
    all_goals exact fun _ _ _ => trivial

theorem markFunctionInactive_grants (namespace_ name : String) :
    GrantsFor pid duration (markFunctionInactive namespace_ name) history fun _ _ => True := by
  refine ((getFunction_grants namespace_ name).imp fun result after known => ?_).bind
  cases result with
  | error err => exact fun _ _ _ => trivial
  | ok function =>
      simp only
      split
      · exact fun _ _ _ => trivial
      · intro before goesOn _
        have knownLater := (known function rfl).goesOn goesOn
        refine ⟨⟨knownLater.granted, fun stored found sameVersion => ?_⟩, ?_⟩
        · obtain ⟨past, readFound, evolves⟩ := knownLater.stored
          obtain rfl := evolves.eq_of_version_eq readFound found sameVersion
          exact .refl _
        · intro _ circumstance response after _
          cases response <;> exact fun _ _ _ => trivial

theorem grants_map {Result Other : Type} {program : ApiProgram Result} (convert : Result → Other)
    (grants : GrantsFor pid duration program history fun _ _ => True) :
    GrantsFor pid duration (do return convert (← program)) history fun _ _ => True :=
  (grants.imp fun _ _ _ => fun _ _ _ => trivial).bind

/-- With a positive duration, both servers and the controller grant it. -/
theorem Job.grants {keepWarmDuration : Int} (positive : 0 < keepWarmDuration) (job : Job)
    (keepsWarm : job.KeepsWarmFor keepWarmDuration) :
    GrantsFor pid keepWarmDuration job.program history fun _ _ => True := by
  have sameDuration : keepWarm keepWarmDuration = keepWarmDuration :=
    if_neg (Int.not_le.mpr positive)
  cases job with
  | markInactive namespace_ name =>
      exact grants_map _ (markFunctionInactive_grants namespace_ name)
  | runTask task =>
      apply grants_map _
      cases task with
      | createFunction req => exact grants_map _ (createFunction_grants req)
      | activate duration namespace_ name =>
          obtain rfl : duration = keepWarmDuration := keepsWarm
          have grants : GrantsFor pid (keepWarm duration) (activate duration namespace_ name) history
            fun _ _ => True := activate_grants duration namespace_ name
          rw [sameDuration] at grants
          exact grants_map _ grants
      | getStatus duration namespace_ name =>
          obtain rfl : duration = keepWarmDuration := keepsWarm
          have grants : GrantsFor pid (keepWarm duration) (getStatus duration namespace_ name) history
            fun _ _ => True := getStatus_grants duration namespace_ name
          rw [sameDuration] at grants
          exact grants_map _ grants
      | reconcile cfg key =>
          obtain rfl : cfg.keepWarmDuration = keepWarmDuration := keepsWarm
          exact grants_map _ (reconcile_grants cfg key)
      | cleanup namespace_ => exact grants_map _ (runCleanup_leavesLeases namespace_).grants

end Jobs

/-! ### Runs -/

/-- The call shortens no lease. -/
def ShortensNoLease {Pid : Type} (event : StaleEvent Pid) : Prop :=
  ∀ key old, event.before.current.functions.find? key = some old →
    ∃ new, event.after.current.functions.find? key = some new ∧
      old.content.deProvisionTime.LastsUntil new.content.deProvisionTime

/-- No run of an operator with this `KEEP_WARM_DURATION` shortens a lease. -/
def NeverShortensLeases (keepWarmDuration : Int) : Prop :=
  ∀ (Pid : Type) [DecidableEq Pid] (history : ClusterHistory) (jobs : Pid → Job)
    (schedule : List (Pid × StaleCircumstance)),
    GrantedFor (keepWarm keepWarmDuration) history →
    (∀ pid, (jobs pid).KeepsWarmFor keepWarmDuration) →
    Event.AtEvery (fun _ event => ShortensNoLease event) (staleEventsOf history jobs schedule)

theorem neverShortensLeases_of_positive {keepWarmDuration : Int} (positive : 0 < keepWarmDuration) :
    NeverShortensLeases keepWarmDuration := by
  intro Pid _ history jobs schedule granted keepsWarm early event late split key old found
  rw [show keepWarm keepWarmDuration = keepWarmDuration from if_neg (Int.not_le.mpr positive)]
    at granted
  have ran : Processes.Ran ApiCall.executeStale (startStale history jobs)
      (staleEventsOf history jobs schedule) _ := Processes.ran_run _ _
  have extends_ := (leaseAgreement Pid keepWarmDuration).allowed_of_ran
    (leaseAgreement_kept keepWarmDuration) ran granted
    (fun pid => (jobs pid).grants positive (keepsWarm pid)) (fun _ _ _ _ => trivial)
    early event late split
  rw [split] at ran
  obtain ⟨circumstance, executed⟩ := ran.executed List.mem_append_cons_self
  rcases relets_of_executed extends_ executed key with same | ⟨new, newFound, lasts, -⟩
  · exact ⟨old, same ▸ found, .refl _⟩
  · exact ⟨new, newFound, lasts old found⟩

/-! ### A shortened lease -/

/-- A cluster with one active function that has no lease yet. -/
def newlyActive : ClusterHistory where
  current :=
    { functions := (Store.empty.create ⟨"default", "one"⟩
        { isActive := true
          isAsync := false
          deProvisionTime := .unset
          language := "go"
          name := "one"
          method := ""
          project := "projone"
          gitCreds := "" }).2
      deployments := Store.empty
      services := Store.empty
      clock := 0 }
  earlier := []
  evolves := by simp

/-- Process 0 activates the function, process 1 reconciles it. -/
def activateAndReconcile (keepWarmDuration : Int) : Nat → Job
  | 0 => .runTask (.activate keepWarmDuration "default" "one")
  | _ => .runTask (.reconcile { defaultSettings with keepWarmDuration } ⟨"default", "one"⟩)

/-- The activation runs first, and the clock stands still. -/
def activateThenReconcile : List (Nat × StaleCircumstance) :=
  [0, 0, 0, 1, 1, 1, 1, 1, 1, 1].map fun pid => (pid, ⟨⟨false, 0⟩, 0, []⟩)

/-- The function after the activation, and what the reconciliation makes of it. -/
def activatedFunction (keepWarmDuration : Int) : Function :=
  ⟨⟨"default", "one"⟩, 2, ⟨true, false, .format (0 + keepWarm keepWarmDuration), "go", "one", "",
    "projone", ""⟩⟩

theorem reconciled_writes (keepWarmDuration : Int) :
    ∃ event, (staleEventsOf newlyActive (activateAndReconcile keepWarmDuration)
        activateThenReconcile).getLast? = some event ∧
      event.before.current.functions.find? (activatedFunction keepWarmDuration).key =
        some (activatedFunction keepWarmDuration) ∧
      event.after.current.functions =
        (event.before.current.functions.write (activatedFunction keepWarmDuration)
          ((activatedFunction keepWarmDuration).withLease (0 + keepWarmDuration)).content).2 :=
  ⟨_, rfl, rfl, rfl⟩

/-- Without a positive duration, reconciliation ends the lease of an activation
at once. -/
theorem not_neverShortensLeases {keepWarmDuration : Int} (notPositive : keepWarmDuration ≤ 0) :
    ¬ NeverShortensLeases keepWarmDuration := by
  intro never
  obtain ⟨event, isLast, stored, written⟩ := reconciled_writes keepWarmDuration
  obtain ⟨early, split⟩ := List.getLast?_eq_some_iff.mp isLast
  have granted : GrantedFor (keepWarm keepWarmDuration) newlyActive := by
    intro past member key function found instant parsed
    obtain rfl := List.mem_singleton.mp member
    obtain rfl := List.mem_singleton.mp (Store.mem_of_find?_eq_some found)
    cases parsed
  obtain ⟨new, newFound, lasts⟩ := never Nat newlyActive (activateAndReconcile keepWarmDuration)
    activateThenReconcile granted (by rintro (_ | _) <;> rfl) early event [] split _ _ stored
  rw [written, Store.find?_write stored, if_pos rfl] at newFound
  obtain rfl := Option.some.inj newFound
  rw [Store.write_content] at lasts
  obtain ⟨instant, parsed, le⟩ := lasts _ rfl
  obtain rfl := Option.some.inj parsed
  rw [show keepWarm keepWarmDuration = 5 * minute from if_pos notPositive] at le
  simp only [second, minute] at le
  omega

end Operator

end Litefunctions
