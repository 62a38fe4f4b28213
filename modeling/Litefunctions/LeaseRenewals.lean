import Litefunctions.CleanupPasses

/-!
# Leases that cleanup discards

A cleanup pass compares the leases of its list with its reading of the clock
and patches the functions later, without a version.  It discards a lease
exactly when the last update of the function after the list wrote a lease that
was not over at that reading.
-/

namespace Litefunctions

namespace Operator

open Program

variable {Pid : Type}

/-- The function that an accepted patch makes inactive. -/
def deactivatedKey : Answered ApiCall ApiCall.Response → Option NamespacedName
  | ⟨.functions (.patch key patch), .ok _⟩ =>
      if patch.isActive = some false then some key else none
  | _ => none

/-- The first reading of the clock in the history of a process. -/
def clockReading (history : ApiHistory) : Option Int :=
  history.findSome? fun
    | ⟨.now, now⟩ => some now
    | _ => none

/-- The lease that an accepted update writes to a function. -/
def writtenLease (key : NamespacedName) :
    Answered ApiCall ApiCall.Response → Option DeProvisionTime
  | ⟨.functions (.update object), .ok _⟩ =>
      if object.key = key then some object.content.deProvisionTime else none
  | _ => none

/-- The last lease that the events wrote to a function. -/
def lastLease (key : NamespacedName) (events : List (ClusterEvent Pid)) :
    Option DeProvisionTime :=
  (events.filterMap fun event => writtenLease key event.answered).getLast?

variable [DecidableEq Pid]

/-- The events after the first list of a process. -/
def sinceList (pid : Pid) : List (ClusterEvent Pid) → List (ClusterEvent Pid)
  | [] => []
  | event :: events =>
      if event.pid = pid ∧ isList event.request then events else sinceList pid events

/-- Whenever a pass makes a function inactive, the lease stored at that moment
was over when the pass read the clock. -/
abbrev KeepsLiveLeases : List (ClusterEvent Pid) → Prop :=
  Event.AtEvery fun early event =>
    ∀ key ∈ deactivatedKey event.answered, ∀ now ∈ clockReading (Event.own event.pid early),
      ∃ stored ∈ event.before.functions.find? key, stored.content.deProvisionTime.ExpiredAt now

/-- Whenever a pass makes a function inactive, the last lease written to it
since the pass's list, if any, was over when the pass read the clock. -/
abbrev NoRenewalSinceList : List (ClusterEvent Pid) → Prop :=
  Event.AtEvery fun early event =>
    ∀ key ∈ deactivatedKey event.answered, ∀ now ∈ clockReading (Event.own event.pid early),
      ∀ lease ∈ lastLease key (sinceList event.pid early), lease.ExpiredAt now

theorem sinceList_eq {pid : Pid} {early late : List (ClusterEvent Pid)} {event : ClusterEvent Pid}
    (none : Event.own pid early = []) (isOwn : event.pid = pid)
    (lists : isList event.request = true) :
    sinceList pid (early ++ event :: late) = late := by
  induction early with
  | nil => simp [sinceList, isOwn, lists]
  | cons other early ih =>
      have notOwn : other.pid ≠ pid := fun isOwn => by
        subst isOwn
        simp at none
      rw [Event.own_cons_other notOwn] at none
      simpa [sinceList, notOwn] using ih none

omit [DecidableEq Pid] in
theorem lastLease_append_singleton (key : NamespacedName) (events : List (ClusterEvent Pid))
    (event : ClusterEvent Pid) :
    lastLease key (events ++ [event]) =
      (writtenLease key event.answered).or (lastLease key events) := by
  unfold lastLease
  cases written : writtenLease key event.answered <;> simp [written]

/-- The lease stored under a key after a step. -/
theorem FunctionStep.lease {activates : Bool} {answered : Answered ApiCall ApiCall.Response}
    {before after : Store NamespacedName FunctionSpec}
    (step : FunctionStep activates answered before after) {key : NamespacedName}
    {stored : Function} (found : before.find? key = some stored) :
    ∃ next, after.find? key = some next ∧
      next.content.deProvisionTime =
        (writtenLease key answered).getD stored.content.deProvisionTime := by
  cases step with
  | unchanged noUpdate =>
      refine ⟨stored, found, ?_⟩
      have none : writtenLease key answered = none := by
        unfold writtenLease
        split
        · next object written => exact absurd rfl (noUpdate object written)
        · rfl
      rw [none]
      rfl
  | updated foundObject objectEq contentEq stores =>
      rename_i object written before time
      by_cases sameKey : key = object.key
      · exact ⟨written, by rw [stores, if_pos sameKey], by simp [writtenLease, sameKey, contentEq]⟩
      · exact ⟨stored, by rw [stores, if_neg sameKey, found],
          by simp [writtenLease, Ne.symm sameKey]⟩
  | patched foundPatched deactivates contentEq stores =>
      rename_i other patch before written
      by_cases sameKey : key = other
      · subst sameKey
        refine ⟨written, by rw [stores, if_pos rfl], ?_⟩
        obtain rfl := Option.some.inj (foundPatched.symm.trans found)
        rw [contentEq]
        rfl
      · exact ⟨stored, by rw [stores, if_neg sameKey, found], rfl⟩
  | created absent inactive contentEq stores =>
      rename_i other spec written
      have otherKey : key ≠ other := fun sameKey => by
        subst sameKey
        simp [absent] at found
      exact ⟨stored, by rw [stores, if_neg otherKey, found], rfl⟩

variable {cluster : Cluster} {tasks : Pid → Task}
variable {last : Processes Pid ApiCall ApiCall.Response Outcome Cluster}

/-- The lease stored under a key is the last one written since any moment at
which the key was stored, or the one of that moment. -/
theorem Runs.storedLease {early middle late : List (ClusterEvent Pid)}
    {listing event : ClusterEvent Pid}
    (ran : Runs cluster tasks (early ++ listing :: middle ++ event :: late) last)
    {key : NamespacedName} {listed : Function}
    (found : listing.after.functions.find? key = some listed) :
    ∃ stored, event.before.functions.find? key = some stored ∧
      stored.content.deProvisionTime =
        (lastLease key middle).getD listed.content.deProvisionTime := by
  have linked := ran.linked
  rw [List.append_assoc, List.cons_append, Event.linked_append] at linked
  refine linked.2.2.run_induction_before rfl (motive := fun middle state =>
    ∃ stored, state.functions.find? key = some stored ∧
      stored.content.deProvisionTime =
        (lastLease key middle).getD listed.content.deProvisionTime) ⟨listed, found, rfl⟩ ?_
  rintro start step rest rfl ⟨stored, storedFound, leaseEq⟩
  rw [show early ++ listing :: (start ++ step :: rest) ++ event :: late =
    (early ++ listing :: start) ++ step :: (rest ++ event :: late) by simp] at ran
  obtain ⟨next, nextFound, nextLease⟩ := ran.functionStep.lease storedFound
  refine ⟨next, nextFound, ?_⟩
  rw [nextLease, leaseEq, lastLease_append_singleton]
  cases writtenLease key step.answered <;> rfl

/-- Only cleanup passes patch functions, and a pass patches what it listed as
active with a lease over. -/
theorem Runs.listedExpired_of_deactivates {early late : List (ClusterEvent Pid)}
    {event : ClusterEvent Pid} (ran : Runs cluster tasks (early ++ event :: late) last)
    {key : NamespacedName} (deactivates : deactivatedKey event.answered = some key) :
    ∃ function, ListedExpired (Event.own event.pid early) function ∧ key = function.key := by
  obtain ⟨patch, requestEq⟩ : ∃ patch, event.request = .functions (.patch key patch) := by
    unfold deactivatedKey at deactivates
    split at deactivates
    · next other patch written answeredEq =>
        split at deactivates
        · obtain rfl := Option.some.inj deactivates
          exact ⟨patch, congrArg Sigma.fst answeredEq⟩
        · cases deactivates
    · cases deactivates
  have writes := ran.assertion (tasks event.pid).program_writes
  cases isCleanup : tasks event.pid with
  | cleanup namespace_ =>
      have along : ((start cluster tasks).program event.pid).Along CleanupCalls
          (fun _ _ => True) [] := by
        simp only [start, isCleanup]
        exact cleanup_calls namespace_
      have calls := ran.assertion along
      rw [requestEq] at calls
      obtain ⟨function, listed, keyEq, -⟩ := calls
      exact ⟨function, listed, keyEq⟩
  | _ =>
      rw [requestEq, isCleanup] at writes
      exact absurd writes.1 Bool.false_ne_true

/-- A pass discards a live lease exactly when one was written since its list. -/
theorem Runs.expired_iff {early late : List (ClusterEvent Pid)}
    {event : ClusterEvent Pid} (ran : Runs cluster tasks (early ++ event :: late) last)
    {key : NamespacedName} (deactivates : deactivatedKey event.answered = some key) {now : Int}
    (read : clockReading (Event.own event.pid early) = some now) :
    (∃ stored ∈ event.before.functions.find? key,
        stored.content.deProvisionTime.ExpiredAt now) ↔
      ∀ lease ∈ lastLease key (sinceList event.pid early), lease.ExpiredAt now := by
  obtain ⟨function, listed, rfl⟩ := ran.listedExpired_of_deactivates deactivates
  obtain ⟨items, clock, rest, ownEq, member, -, expired⟩ := listed
  obtain rfl : clock = now := by
    rw [ownEq] at read
    exact Option.some.inj read
  rw [← List.nil_append (_ :: _)] at ownEq
  obtain ⟨before, listing, middle, rfl, isOwn, answeredEq, noneBefore, -⟩ :=
    Event.exists_split_of_own_eq ownEq
  obtain ⟨circumstance, executed⟩ := ran.executed_of_answered_eq (by simp) answeredEq
  obtain ⟨rfl, afterEq⟩ := StoreCall.execute_list_eq_ok (execute_functions executed)
  have found : listing.after.functions.find? function.key = some function :=
    afterEq ▸ Store.find?_key_of_mem member
  rw [sinceList_eq noneBefore isOwn (congrArg (fun answered => isList answered.1) answeredEq)]
  obtain ⟨stored, storedFound, leaseEq⟩ := ran.storedLease found
  simp only [storedFound, Option.mem_some_iff, exists_eq_left', leaseEq]
  cases lastLease function.key middle with
  | none => simp [expired]
  | some lease => simp

/-- In every run of the operator, cleanup keeps all live leases exactly when no
live lease is written between the list of a pass and its patch. -/
theorem keepsLiveLeases_iff (cluster : Cluster) (tasks : Pid → Task)
    (schedule : List (Pid × ApiCall.Circumstance)) :
    KeepsLiveLeases (eventsOf cluster tasks schedule) ↔
      NoRenewalSinceList (eventsOf cluster tasks schedule) := by
  have ran : Runs cluster tasks (eventsOf cluster tasks schedule) _ := Processes.ran_run _ _
  constructor
  · intro keeps early event late split key deactivates now read
    exact ((split ▸ ran).expired_iff deactivates read).mp
      (keeps early event late split key deactivates now read)
  · intro noRenewal early event late split key deactivates now read
    exact ((split ▸ ran).expired_iff deactivates read).mpr
      (noRenewal early event late split key deactivates now read)

/-! ### A discarded lease -/

/-- A cluster with one active function whose lease ended at second 100. -/
def expiredCluster : Cluster where
  functions := (Store.empty.create ⟨"default", "one"⟩
    { isActive := true
      isAsync := false
      deProvisionTime := .rfc3339 100
      language := "python"
      name := "one"
      method := ""
      project := "projone"
      gitCreds := "" }).2
  deployments := Store.empty
  services := Store.empty
  clock := 200 * second

/-- Process 0 is a cleanup pass, process 1 an activation of the function. -/
def cleanupAndActivate : Nat → Task
  | 0 => .cleanup "default"
  | _ => .activate (5 * minute) "default" "one"

/-- The activation runs between the list and the patch of the pass. -/
def renewalBeforePatch : List (Nat × ApiCall.Circumstance) :=
  [0, 0, 1, 1, 1, 0].map fun pid => (pid, ⟨false, 0⟩)

/-- The renewed lease is discarded. -/
theorem renewed_lease_discarded :
    ¬ KeepsLiveLeases (eventsOf expiredCluster cleanupAndActivate renewalBeforePatch) := by
  decide

end Operator

end Litefunctions
