import Litefunctions.GrantedLeases

/-!
# Leases of reported functions

`GetStatus` reads a function, and where it is active renews its lease with a
second read and an update.  It answers from the first read alone: where the
second read returns an inactive function, it reports an active one without
having renewed anything.
-/

namespace Litefunctions

namespace Operator

open Program

/-- The calls of a status request whose answer is that the function is active. -/
inductive ReportsActive (key : NamespacedName) (duration : Int) : ApiHistory → Prop
  | renewed {checked read written : Function} {now : Int} (wasActive : checked.content.isActive = true)
      (isActive : read.content.isActive = true) :
      ReportsActive key duration
        [⟨.functions (.get key), Except.ok checked⟩, ⟨.functions (.get key), Except.ok read⟩,
          ⟨.now, now⟩,
          ⟨.functions (.update (Function.withLease read (now + duration))), Except.ok written⟩]
  | declined {checked read : Function} (wasActive : checked.content.isActive = true)
      (inactive : read.content.isActive = false) :
      ReportsActive key duration
        [⟨.functions (.get key), Except.ok checked⟩, ⟨.functions (.get key), Except.ok read⟩]

theorem extendFunctionLease_reports {namespace_ name : String} {duration : Int} {checked : Function}
    (wasActive : checked.content.isActive = true) :
    (extendFunctionLease namespace_ name duration).Along (fun _ _ => True)
      (fun after result => ∀ extended, result = .ok extended →
        ReportsActive ⟨namespace_, name⟩ duration after)
      [⟨.functions (.get ⟨namespace_, name⟩), Except.ok checked⟩] := by
  unfold extendFunctionLease getFunction
  simp only [along_bind]
  apply And.intro trivial
  intro response
  cases response with
  | error err => exact fun _ isOk => by cases isOk
  | ok read =>
      simp only [along_done, pure_eq_done]
      split
      · next inactive =>
          intro extended _
          exact .declined wasActive (by simpa using inactive)
      · next isActive =>
          refine ⟨trivial, fun now => ⟨trivial, fun updated => ?_⟩⟩
          cases updated with
          | error err => exact fun _ isOk => by cases isOk
          | ok written =>
              intro extended _
              exact .renewed wasActive (by simpa using isActive)

/-- Where the answer is that the function is active, it was so in the first read. -/
theorem getStatus_reports (keepWarmDuration : Int) (namespace_ name : String) :
    (getStatus keepWarmDuration namespace_ name).Along (fun _ _ => True)
      (fun after result => result = .ok true →
        ReportsActive ⟨namespace_, name⟩ (keepWarm keepWarmDuration) after) [] := by
  unfold getStatus isFunctionActive
  split
  · exact fun isOk => by cases isOk
  · unfold getFunction
    simp only [along_bind]
    apply And.intro trivial
    intro response
    cases response with
    | error err => exact fun isOk => by cases isOk
    | ok checked =>
        simp only [along_done, pure_eq_done]
        cases wasActive : checked.content.isActive with
        | false => exact fun isOk => by cases isOk
        | true =>
            simp only [along_bind]
            apply (extendFunctionLease_reports wasActive).imp (fun _ _ => id)
            intro after result reports
            cases result with
            | error err => exact fun isOk => by cases isOk
            | ok extended => exact fun _ => reports extended rfl

/-! ### Runs -/

section Runs

variable {Pid : Type} [DecidableEq Pid]

/-- An event of the process stores a later lease in the function, which was
active in the version that the process renewed. -/
def HasRenewed (pid : Pid) (key : NamespacedName) (duration : Int)
    (events : List (StaleEvent Pid)) : Prop :=
  ∃ early event late, events = early ++ event :: late ∧ event.pid = pid ∧
    ∃ stored written : Function, ∃ now : Int,
      ⟨.now, now⟩ ∈ Event.own pid early ∧
      event.before.current.functions.find? key = some stored ∧
      stored.content.isActive = true ∧
      event.answered =
        ⟨.functions (.update (stored.withLease (now + duration))), Except.ok written⟩ ∧
      event.after.current.functions.find? key = some written ∧
      written.content = (stored.withLease (now + duration)).content

/-- Whenever the process reads the function, what is read is active. -/
def ReadsActive (pid : Pid) (key : NamespacedName) (events : List (StaleEvent Pid)) : Prop :=
  ∀ read : Function, ⟨.functions (.get key), Except.ok read⟩ ∈ Event.own pid events →
    read.content.isActive = true

variable {history : ClusterHistory} {jobs : Pid → Job} {events : List (StaleEvent Pid)}
variable {last : Processes Pid ApiCall ApiCall.Response JobOutcome ClusterHistory}

/-- A function is read under its own key. -/
theorem key_of_staleRead (ran : Processes.Ran ApiCall.executeStale (startStale history jobs) events last)
    {pid : Pid} {key : NamespacedName} {read : Function}
    (member : ⟨.functions (.get key), Except.ok read⟩ ∈ Event.own pid events) : read.key = key := by
  obtain ⟨reading, -, -, -, circumstance, executed⟩ := ran.executed_of_mem_own member
  rcases executeStale_cases executed with ⟨wasRead, -⟩ | ⟨notRead, -⟩
  · exact Store.key_of_find?_eq_some (found_of_readStale wasRead)
  · cases notRead

/-- An accepted update of an object that was read changes what was read. -/
theorem hasRenewed_of_own_eq
    (ran : Processes.Ran ApiCall.executeStale (startStale history jobs) events last)
    {pid : Pid} {key : NamespacedName} {duration now : Int} {read written : Function}
    {early late : ApiHistory} (isActive : read.content.isActive = true)
    (wasRead : ⟨.functions (.get key), Except.ok read⟩ ∈ early) (clock : ⟨.now, now⟩ ∈ early)
    (ownEq : Event.own pid events = early ++
      ⟨.functions (.update (read.withLease (now + duration))), Except.ok written⟩ :: late) :
    HasRenewed pid key duration events := by
  obtain ⟨first, event, rest, rfl, rfl, answeredEq, rfl, -⟩ := Event.exists_split_of_own_eq ownEq
  have member : ⟨.functions (.get key), Except.ok read⟩ ∈
      Event.own event.pid (first ++ event :: rest) := by
    rw [Event.own_append]
    exact List.mem_append_left _ wasRead
  have keyEq := key_of_staleRead ran member
  obtain ⟨circumstance, executed⟩ :=
    ran.executed_of_answered_eq (List.mem_append_right _ List.mem_cons_self) answeredEq
  rcases executeStale_cases executed with ⟨isRead, -⟩ | ⟨-, answered⟩
  · cases isRead
  · obtain ⟨stored, found, sameVersion, contentEq, stores⟩ :=
      Store.update_eq_ok (execute_functions answered)
    obtain rfl := stored_eq_staleRead ran wasRead found sameVersion
    change event.before.current.functions.find? stored.key = some stored at found
    rw [keyEq] at found
    refine ⟨first, event, rest, rfl, rfl, stored, written, now, clock, found, isActive, answeredEq,
      ?_, contentEq⟩
    rw [stores key]
    exact if_pos keyEq.symm

theorem update_mem_own {pid : Pid} {key : NamespacedName} {duration : Int}
    (renewed : HasRenewed pid key duration events) :
    ∃ object written : Function,
      ⟨.functions (.update object), Except.ok written⟩ ∈ Event.own pid events := by
  obtain ⟨early, event, late, rfl, rfl, stored, written, now, -, -, -, answeredEq, -⟩ := renewed
  refine ⟨stored.withLease (now + duration), written, ?_⟩
  rw [← answeredEq, Event.own_append, Event.own_cons_self]
  exact List.mem_append_right _ List.mem_cons_self

variable {pid : Pid} {namespace_ name : String} {keepWarmDuration : Int}

theorem reportsActive_of_ran
    (ran : Processes.Ran ApiCall.executeStale (startStale history jobs) events last)
    (isStatus : jobs pid = .runTask (.getStatus keepWarmDuration namespace_ name))
    (isDone : last.program pid = .done (.ofTask (.status (.ok true)))) :
    ReportsActive ⟨namespace_, name⟩ (keepWarm keepWarmDuration) (Event.own pid events) := by
  have along : ((startStale history jobs).program pid).Along (fun _ _ => True)
      (fun after outcome => outcome = .ofTask (.status (.ok true)) →
        ReportsActive ⟨namespace_, name⟩ (keepWarm keepWarmDuration) after) [] := by
    simp only [startStale, isStatus]
    apply along_bind.mpr
    apply along_bind.mpr
    apply (getStatus_reports keepWarmDuration namespace_ name).imp (fun _ _ => id)
    intro after result reports same
    injection same with same
    injection same with same
    exact reports same
  exact ran.finished along isDone rfl

/-- A status request that answers that the function is active has renewed its
lease exactly where each of its reads returned an active function. -/
theorem hasRenewed_iff
    (ran : Processes.Ran ApiCall.executeStale (startStale history jobs) events last)
    (isStatus : jobs pid = .runTask (.getStatus keepWarmDuration namespace_ name))
    (isDone : last.program pid = .done (.ofTask (.status (.ok true)))) :
    HasRenewed pid ⟨namespace_, name⟩ (keepWarm keepWarmDuration) events ↔
      ReadsActive pid ⟨namespace_, name⟩ events := by
  have reports := reportsActive_of_ran ran isStatus isDone
  generalize ownEq : Event.own pid events = own at reports
  cases reports with
  | @renewed checked read written now wasActive isActive =>
      constructor
      · intro _ other member
        rw [ownEq] at member
        simp only [List.mem_cons, List.not_mem_nil, or_false] at member
        rcases member with same | same | same | same
        · cases same
          exact wasActive
        · cases same
          exact isActive
        · cases same
        · cases same
      · intro _
        have split : Event.own pid events =
            [⟨.functions (.get ⟨namespace_, name⟩), Except.ok checked⟩,
              ⟨.functions (.get ⟨namespace_, name⟩), Except.ok read⟩, ⟨.now, now⟩] ++
            [⟨.functions (.update (read.withLease (now + keepWarm keepWarmDuration))),
              Except.ok written⟩] := ownEq
        exact hasRenewed_of_own_eq ran isActive (by simp) (by simp) split
  | @declined checked read wasActive inactive =>
      constructor
      · intro renewed
        obtain ⟨object, written, member⟩ := update_mem_own renewed
        rw [ownEq] at member
        simp only [List.mem_cons, List.not_mem_nil, or_false] at member
        rcases member with same | same <;> cases same
      · intro active
        have isActive := active read (by rw [ownEq]; simp)
        rw [inactive] at isActive
        cases isActive

end Runs

/-! ### A deactivation between two reads -/

/-- Process 0 asks for the status of a function, the others deactivate it. -/
def statusAndDeactivations : Nat → Job
  | 0 => .runTask (.getStatus 0 "default" "one")
  | _ => .markInactive "default" "one"

/-- The processes after a schedule in which every call is answered at once. -/
def statusRun (schedule : List Nat) :
    List (StaleEvent Nat) × Processes Nat ApiCall ApiCall.Response JobOutcome ClusterHistory :=
  (startStale newlyActive statusAndDeactivations).run ApiCall.executeStale
    (schedule.map fun pid => (pid, ⟨⟨false, 0⟩, 0, []⟩))

/-- The function in its first version. -/
def activeOne : Function :=
  ⟨⟨"default", "one"⟩, 1, ⟨true, false, .unset, "go", "one", "", "projone", ""⟩⟩

theorem undisturbedStatus_renews :
    HasRenewed 0 ⟨"default", "one"⟩ (keepWarm 0) (statusRun [0, 0, 0, 0]).1 := by
  have ran : Processes.Ran ApiCall.executeStale (startStale newlyActive statusAndDeactivations)
      (statusRun [0, 0, 0, 0]).1 (statusRun [0, 0, 0, 0]).2 := Processes.ran_run _ _
  apply (hasRenewed_iff ran rfl rfl).mpr
  intro read member
  have own : Event.own 0 (statusRun [0, 0, 0, 0]).1 =
      [⟨.functions (.get ⟨"default", "one"⟩), Except.ok activeOne⟩,
        ⟨.functions (.get ⟨"default", "one"⟩), Except.ok activeOne⟩, ⟨.now, (0 : Int)⟩,
        ⟨.functions (.update (activeOne.withLease (keepWarm 0))),
          Except.ok { activeOne.withLease (keepWarm 0) with version := 2 }⟩] := rfl
  rw [own] at member
  simp only [List.mem_cons, List.not_mem_nil, or_false] at member
  rcases member with same | same | same | same
  · cases same
    rfl
  · cases same
    rfl
  · cases same
  · cases same

/-- The function is deactivated between the two reads of the request. -/
theorem disturbedStatus_reports :
    ¬ ∀ (history : ClusterHistory) (jobs : Nat → Job) (events : List (StaleEvent Nat))
      (last : Processes Nat ApiCall ApiCall.Response JobOutcome ClusterHistory) (pid : Nat)
      (keepWarmDuration : Int) (namespace_ name : String),
      Processes.Ran ApiCall.executeStale (startStale history jobs) events last →
        jobs pid = .runTask (.getStatus keepWarmDuration namespace_ name) →
        last.program pid = .done (.ofTask (.status (.ok true))) →
        HasRenewed pid ⟨namespace_, name⟩ (keepWarm keepWarmDuration) events := by
  intro always
  have renewed := always newlyActive statusAndDeactivations (statusRun [0, 1, 1, 0]).1
    (statusRun [0, 1, 1, 0]).2 0 0 "default" "one" (Processes.ran_run _ _) rfl rfl
  obtain ⟨object, written, member⟩ := update_mem_own renewed
  have own : Event.own 0 (statusRun [0, 1, 1, 0]).1 =
      [⟨.functions (.get ⟨"default", "one"⟩), Except.ok activeOne⟩,
        ⟨.functions (.get ⟨"default", "one"⟩),
          Except.ok { activeOne.setActive false with version := 2 }⟩] := rfl
  rw [own] at member
  simp only [List.mem_cons, List.not_mem_nil, or_false] at member
  rcases member with same | same <;> cases same

end Operator

end Litefunctions
