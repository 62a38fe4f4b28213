import Litefunctions.LeaseRenewals

/-!
# Activations that run at the same time

An activation reads the Function object and updates it, once.  When the API
server rejects nothing but stale versions, an activation succeeds exactly when
no other call changes the stored object between its two calls.
-/

namespace Litefunctions

namespace Operator

open Program

variable {Pid : Type}

/-- The calls of an activation, with everything that was answered before. -/
def ActivateCalls (key : NamespacedName) (history : ApiHistory) : ApiCall → Prop
  | .functions (.get other) => history = [] ∧ other = key
  | .now => ∃ read, history = [⟨.functions (.get key), Except.ok read⟩]
  | .functions (.update object) =>
      ∃ read now, history = [⟨.functions (.get key), Except.ok read⟩, ⟨.now, now⟩] ∧
        object.key = read.key ∧ object.version = read.version
  | _ => False

/-- The result of an activation, with everything that was answered. -/
def ActivateResult (key : NamespacedName) (history : ApiHistory) (outcome : Outcome) : Prop :=
  (∃ err, history = [⟨.functions (.get key), Except.error err⟩]) ∨
    ∃ read now object response result,
      history = [⟨.functions (.get key), Except.ok read⟩, ⟨.now, now⟩,
        ⟨.functions (.update object), response⟩] ∧
      object.key = read.key ∧ object.version = read.version ∧
      outcome = .activated result ∧
      ((∃ updated, response = Except.ok updated) ↔ ∃ activated, result = Except.ok activated)

theorem activate_calls (keepWarmDuration : Int) {key : NamespacedName}
    (named : key.namespace_ ≠ "" ∧ key.name ≠ "") :
    (Task.activate keepWarmDuration key.namespace_ key.name).program.Along
      (ActivateCalls key) (ActivateResult key) [] := by
  have unnamed : ¬ (key.namespace_ = "" ∨ key.name = "") := by simpa using named
  simp only [Task.program, activate, if_neg unnamed, markFunctionActive, getFunction, along_bind]
  refine ⟨⟨rfl, rfl⟩, fun response => ?_⟩
  cases response with
  | error err => exact .inl ⟨err, rfl⟩
  | ok read =>
      simp only [along_done, pure_eq_done, along_bind]
      refine ⟨⟨read, rfl⟩, fun now => ⟨⟨read, now, rfl, rfl, rfl⟩, fun response => ?_⟩⟩
      cases response with
      | error err => exact .inr ⟨read, now, _, _, _, rfl, rfl, rfl, rfl, by simp⟩
      | ok updated => exact .inr ⟨read, now, _, _, _, rfl, rfl, rfl, rfl, by simp⟩

variable [DecidableEq Pid] {cluster : Cluster} {tasks : Pid → Task}
variable {last : Processes Pid ApiCall ApiCall.Response Outcome Cluster}

omit [DecidableEq Pid] in
/-- An available API server accepts an update exactly when the stored object
has its version. -/
theorem isOk_update_iff {object : Function} {circumstance : ApiCall.Circumstance}
    {response : Except StoreError Function} {before after : Cluster}
    (available : circumstance.unavailable = false)
    (executed : (ApiCall.functions (.update object)).execute circumstance before =
      some (response, after)) :
    (∃ updated, response = .ok updated) ↔
      ∃ stored, before.functions.find? object.key = some stored ∧
        stored.version = object.version := by
  have answered := congrArg Prod.fst (Option.some.inj executed)
  rw [available] at answered
  change (before.functions.update object).1 = response at answered
  rw [← answered]
  exact Store.isOk_update_iff

omit [DecidableEq Pid] in
/-- What is stored at two moments of a run is stored around every event in
between. -/
theorem find?_around {first : Cluster} {start rest : List (ClusterEvent Pid)}
    {event : ClusterEvent Pid} (linked : Event.Linked first (start ++ event :: rest))
    (evolves : ∀ other ∈ start ++ event :: rest,
      Store.Evolves other.before.functions other.after.functions)
    {key : NamespacedName} {stored : Function} (before : first.functions.find? key = some stored)
    (after : (Event.lastShared first (start ++ event :: rest)).functions.find? key =
      some stored) :
    event.before.functions.find? key = some stored ∧
      event.after.functions.find? key = some stored := by
  have relates : ∀ {from_ : Cluster} {events : List (ClusterEvent Pid)},
      Event.Linked from_ events → events ⊆ start ++ event :: rest →
      Store.Evolves from_.functions (Event.lastShared from_ events).functions :=
    fun linked subset =>
      linked.relates (fun early late => Store.Evolves early.functions late.functions)
        (fun _ => .refl _) .trans fun other member => evolves other (subset member)
  obtain ⟨linkedStart, beforeEq, linkedRest⟩ := Event.linked_append.mp linked
  have toEvent := relates linkedStart fun other member => by simp [member]
  have overEvent := evolves event (by simp)
  have fromEvent := relates linkedRest fun other member => by simp [member]
  rw [Event.lastShared_append, Event.lastShared_cons] at after
  rw [← beforeEq] at toEvent
  exact ⟨toEvent.find?_between (overEvent.trans fromEvent) before after,
    (toEvent.trans overEvent).find?_between fromEvent before after⟩

section Activation

variable {early between late : List (ClusterEvent Pid)} {reading updating : ClusterEvent Pid}
variable {key : NamespacedName} {read object : Function} {response : Except StoreError Function}

/-- An update is accepted exactly when nothing changed the stored object since
its process read it. -/
theorem Runs.accepted_iff
    (ran : Runs cluster tasks (early ++ reading :: between ++ updating :: late) last)
    (readingEq : reading.answered = ⟨.functions (.get key), Except.ok read⟩)
    (updatingEq : updating.answered = ⟨.functions (.update object), response⟩)
    (sameProcess : reading.pid = updating.pid)
    (keyEq : object.key = read.key) (versionEq : object.version = read.version)
    {circumstance : ApiCall.Circumstance} (available : circumstance.unavailable = false)
    (executed : updating.answered.1.execute circumstance updating.before =
      some (updating.answered.2, updating.after)) :
    (∃ updated, response = .ok updated) ↔
      ∀ event ∈ between,
        event.after.functions.find? key = event.before.functions.find? key := by
  obtain ⟨_, readExecuted⟩ := ran.executed_of_answered_eq (by simp) readingEq
  obtain ⟨readFound, readAfter⟩ :=
    StoreCall.execute_get_eq_ok (execute_functions readExecuted)
  have linked := ran.linked
  rw [List.append_assoc, List.cons_append, Event.linked_append] at linked
  have found : reading.after.functions.find? key = some read := readAfter ▸ readFound
  rw [updatingEq] at executed
  rw [isOk_update_iff available executed, keyEq, versionEq, Store.key_of_find?_eq_some readFound]
  constructor
  · rintro ⟨stored, storedFound, sameVersion⟩ event member
    have member' : ⟨.functions (.get key), Except.ok read⟩ ∈
        Event.own updating.pid (early ++ reading :: between) :=
      Event.mem_own.mpr ⟨reading, by simp, sameProcess, readingEq⟩
    have storedEq : stored = read :=
      ran.stored_eq_read member' (Store.key_of_find?_eq_some readFound ▸ storedFound) sameVersion
    obtain ⟨start, rest, rfl⟩ := List.append_of_mem member
    obtain ⟨linkedBetween, beforeEq, -⟩ := Event.linked_append.mp linked.2.2
    obtain ⟨beforeFound, afterFound⟩ := find?_around linkedBetween
      (fun other otherMember => functions_evolve _ _ (ran.executed (List.mem_append_left _
        (List.mem_append_right _ (List.mem_cons_of_mem _ otherMember)))).choose_spec)
      found (beforeEq ▸ storedEq ▸ storedFound)
    rw [beforeFound, afterFound]
  · intro unchanged
    refine ⟨read, ?_, rfl⟩
    refine linked.2.2.run_induction_before rfl
      (motive := fun _ state => state.functions.find? key = some read) found ?_
    rintro start event rest rfl foundBefore
    rw [unchanged event (by simp), foundBefore]

end Activation

/-- Every activation of the function that has finished has succeeded. -/
def ActivationsSucceed (tasks : Pid → Task) (key : NamespacedName)
    (last : Processes Pid ApiCall ApiCall.Response Outcome Cluster) : Prop :=
  ∀ pid keepWarmDuration,
    tasks pid = .activate keepWarmDuration key.namespace_ key.name →
      ∀ outcome, last.program pid = .done outcome →
        ∃ response, outcome = .activated (.ok response)

/-- Between an activation's reading of the function and its update, no event
changes the stored object. -/
def Undisturbed (tasks : Pid → Task) (key : NamespacedName)
    (events : List (ClusterEvent Pid)) : Prop :=
  ∀ early reading between updating late,
    events = early ++ reading :: between ++ updating :: late → reading.pid = updating.pid →
      (∃ keepWarmDuration,
        tasks updating.pid = .activate keepWarmDuration key.namespace_ key.name) →
      (∃ read, reading.answered = ⟨.functions (.get key), Except.ok read⟩) →
      (∃ object response, updating.answered = ⟨.functions (.update object), response⟩) →
      ∀ event ∈ between, event.after.functions.find? key = event.before.functions.find? key

/-- A stored function stays stored: no task deletes functions. -/
theorem Runs.exists_stored {early late : List (ClusterEvent Pid)} {event : ClusterEvent Pid}
    (ran : Runs cluster tasks (early ++ event :: late) last) {key : NamespacedName}
    (stored : ∃ function, cluster.functions.find? key = some function) :
    ∃ function, event.before.functions.find? key = some function := by
  refine ran.linked.run_induction_before rfl
    (motive := fun _ state => ∃ function, state.functions.find? key = some function) stored ?_
  rintro start step rest rfl ⟨function, found⟩
  rw [List.append_assoc, List.cons_append] at ran
  obtain ⟨next, nextFound, -⟩ := ran.functionStep.lease found
  exact ⟨next, nextFound⟩

/-- All calls of the run were made while the API server was available. -/
def Available (events : List (ClusterEvent Pid)) : Prop :=
  ∀ event ∈ events, ∃ circumstance, circumstance.unavailable = false ∧
    event.answered.1.execute circumstance event.before = some (event.answered.2, event.after)

omit [DecidableEq Pid] in
/-- An available API server finds a stored function. -/
theorem get_isOk {key : NamespacedName} {circumstance : ApiCall.Circumstance}
    {response : Except StoreError Function} {before after : Cluster}
    (available : circumstance.unavailable = false)
    (executed : (ApiCall.functions (.get key)).execute circumstance before =
      some (response, after))
    (stored : ∃ function, before.functions.find? key = some function) :
    ∃ function, response = .ok function := by
  obtain ⟨function, found⟩ := stored
  have answered := congrArg Prod.fst (Option.some.inj executed)
  rw [available] at answered
  change (StoreCall.execute _ (.get key) before.functions).1 = response at answered
  rw [StoreCall.execute, found] at answered
  exact ⟨function, answered.symm⟩

section Iff

variable {events : List (ClusterEvent Pid)} {key : NamespacedName}

theorem Runs.undisturbed_of_succeed (ran : Runs cluster tasks events last)
    (named : key.namespace_ ≠ "" ∧ key.name ≠ "") (available : Available events)
    (succeed : ActivationsSucceed tasks key last) : Undisturbed tasks key events := by
  rintro early reading between updating late rfl sameProcess ⟨keepWarmDuration, isActivate⟩
    ⟨read, readingEq⟩ ⟨object, response, updatingEq⟩
  have along : ((start cluster tasks).program updating.pid).Along
      (ActivateCalls key) (ActivateResult key) [] := by
    simp only [start, isActivate]
    exact activate_calls _ named
  have requestEq : updating.request = .functions (.update object) :=
    congrArg Sigma.fst updatingEq
  have calls := ran.assertion along
  rw [requestEq] at calls
  obtain ⟨first, now, ownEq, keyEq, versionEq⟩ := calls
  have readMember : reading.answered ∈ Event.own updating.pid (early ++ reading :: between) :=
    Event.mem_own.mpr ⟨reading, by simp, sameProcess, rfl⟩
  obtain rfl : read = first := by
    rw [ownEq, readingEq] at readMember
    simpa using readMember
  obtain ⟨circumstance, isAvailable, executed⟩ := available updating (by simp)
  refine (ran.accepted_iff readingEq updatingEq sameProcess keyEq versionEq isAvailable
    executed).mp ?_
  -- After its update the process has made all its calls.
  have there := along.of_reaches (ran.reaches updating.pid)
  rw [Event.own_append, ownEq, Event.own_cons_self, updatingEq] at there
  cases programEq : last.program updating.pid with
  | call request next =>
      rw [programEq] at there
      rcases request with (_ | _ | _ | _ | _ | _) | _ | _ | _ <;>
        simp [ActivateCalls] at there
  | done outcome =>
      rw [programEq] at there
      obtain ⟨succeeded, rfl⟩ := succeed _ _ isActivate _ programEq
      rcases there with ⟨err, historyEq⟩ |
        ⟨_, _, _, _, result, historyEq, -, -, resultEq, succeeds⟩
      · simp at historyEq
      · have responseEq := (List.cons.inj (List.cons.inj (List.cons.inj historyEq).2).2).1
        cases responseEq
        exact succeeds.mpr ⟨succeeded, (Outcome.activated.inj resultEq).symm⟩

theorem Runs.succeed_of_undisturbed (ran : Runs cluster tasks events last)
    (named : key.namespace_ ≠ "" ∧ key.name ≠ "") (available : Available events)
    (stored : ∃ function, cluster.functions.find? key = some function)
    (undisturbed : Undisturbed tasks key events) : ActivationsSucceed tasks key last := by
  intro pid keepWarmDuration isActivate outcome isDone
  have along : ((start cluster tasks).program pid).Along
      (ActivateCalls key) (ActivateResult key) [] := by
    simp only [start, isActivate]
    exact activate_calls _ named
  rcases ran.finished along isDone with ⟨err, ownEq⟩ |
    ⟨read, now, object, response, result, ownEq, keyEq, versionEq, rfl, succeeds⟩
  · rw [← List.nil_append [_]] at ownEq
    obtain ⟨early, reading, late, rfl, -, readingEq, -⟩ := Event.exists_split_of_own_eq ownEq
    obtain ⟨circumstance, isAvailable, executed⟩ := available reading (by simp)
    rw [readingEq] at executed
    obtain ⟨function, isOk⟩ := get_isOk isAvailable executed (ran.exists_stored stored)
    cases isOk
  · rw [show ∀ first second third : Answered ApiCall ApiCall.Response,
      [first, second, third] = [first, second] ++ third :: [] from fun _ _ _ => rfl] at ownEq
    obtain ⟨before, updating, late, rfl, isOwn, updatingEq, beforeEq, -⟩ :=
      Event.exists_split_of_own_eq ownEq
    rw [← List.nil_append (_ :: _)] at beforeEq
    obtain ⟨early, reading, between, rfl, readingOwn, readingEq, -⟩ :=
      Event.exists_split_of_own_eq beforeEq
    subst isOwn
    obtain ⟨circumstance, isAvailable, executed⟩ := available updating (by simp)
    have accepted := (ran.accepted_iff readingEq updatingEq readingOwn keyEq versionEq
      isAvailable executed).mpr (undisturbed _ _ _ _ _ rfl readingOwn ⟨_, isActivate⟩
        ⟨read, readingEq⟩ ⟨object, response, updatingEq⟩)
    obtain ⟨succeeded, rfl⟩ := succeeds.mp accepted
    exact ⟨succeeded, rfl⟩

end Iff

/-- When only stale versions are rejected, all activations of a function
succeed exactly when none is disturbed between its two calls. -/
theorem activationsSucceed_iff {cluster : Cluster} (tasks : Pid → Task) {key : NamespacedName}
    (named : key.namespace_ ≠ "" ∧ key.name ≠ "")
    (stored : ∃ function, cluster.functions.find? key = some function)
    {schedule : List (Pid × ApiCall.Circumstance)}
    (available : ∀ turn ∈ schedule, turn.2.unavailable = false) :
    ActivationsSucceed tasks key ((start cluster tasks).run ApiCall.execute schedule).2 ↔
      Undisturbed tasks key (eventsOf cluster tasks schedule) := by
  have ran : Runs cluster tasks (eventsOf cluster tasks schedule)
    ((start cluster tasks).run ApiCall.execute schedule).2 := Processes.ran_run _ _
  have allAvailable : Available (eventsOf cluster tasks schedule) := by
    intro event member
    obtain ⟨turn, turnMember, executed⟩ := Processes.executed_of_mem_run member
    exact ⟨turn.2, available turn turnMember, executed⟩
  exact ⟨ran.undisturbed_of_succeed named allAvailable,
    ran.succeed_of_undisturbed named allAvailable stored⟩

/-! ### Two requests at the same time -/

/-- Two requests activate the same function. -/
def twoActivations : Nat → Task :=
  fun _ => .activate (5 * minute) "default" "one"

/-- Both read the function before one of them updates it. -/
def overlappingCalls : List (Nat × ApiCall.Circumstance) :=
  [0, 1, 0, 1, 0, 1].map fun pid => (pid, ⟨false, 0⟩)

private theorem overlapping_rejected :
    ((start expiredCluster twoActivations).run ApiCall.execute overlappingCalls).2.program 1 =
      .done (.activated (.error (.internal "Failed to activate function: "
        ⟨"failed to update function: ", .conflict⟩))) := by
  rfl

/-- The second request is refused. -/
theorem overlapping_activation_refused :
    ¬ ActivationsSucceed twoActivations ⟨"default", "one"⟩
      ((start expiredCluster twoActivations).run ApiCall.execute overlappingCalls).2 := by
  intro succeed
  obtain ⟨response, isOk⟩ := succeed 1 (5 * minute) rfl _ overlapping_rejected
  simp at isOk

theorem overlapping_activation_disturbed :
    ¬ Undisturbed twoActivations ⟨"default", "one"⟩
      (eventsOf expiredCluster twoActivations overlappingCalls) := by
  intro undisturbed
  have succeed := (activationsSucceed_iff twoActivations (by decide) ⟨_, rfl⟩
    (by decide)).mpr undisturbed
  obtain ⟨response, isOk⟩ := succeed 1 (5 * minute) rfl _ overlapping_rejected
  simp at isOk

end Operator

end Litefunctions
