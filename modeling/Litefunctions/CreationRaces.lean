import Litefunctions.OperatorRuns

/-!
# Races of remote creations

A remote creation reads whether the function exists, and then creates it.  Of
several requests that read before one of them has created it, all but one are
refused by the API server, and answer with an error in place of `false`.
-/

namespace Litefunctions

namespace ApiCall

/-- The API server answers every call. -/
def executeAvailable (call : ApiCall) (elapsed : Nat) (cluster : Cluster) :
    Option (call.Response × Cluster) :=
  some (call.answer false elapsed cluster)

end ApiCall

namespace Operator

open Program

/-! ### The calls of a request -/

/-- The calls of a creation with its result. -/
inductive CreationHistory (key : NamespacedName) (spec : FunctionSpec) (complete : Prop) :
    ApiHistory → Except Status Bool → Prop
  | incomplete {status : Status} (missing : ¬ complete) :
      CreationHistory key spec complete [] (.error status)
  | existing {function : Function} (given : complete) :
      CreationHistory key spec complete [⟨.functions (.get key), Except.ok function⟩] (.ok false)
  | unread {err : StoreError} {status : Status} (given : complete) (other : err ≠ .notFound) :
      CreationHistory key spec complete [⟨.functions (.get key), Except.error err⟩] (.error status)
  | created {written : Function} (given : complete) :
      CreationHistory key spec complete
        [⟨.functions (.get key), Except.error .notFound⟩,
          ⟨.functions (.create key spec), Except.ok written⟩] (.ok true)
  | refused {err : StoreError} {status : Status} (given : complete) :
      CreationHistory key spec complete
        [⟨.functions (.get key), Except.error .notFound⟩,
          ⟨.functions (.create key spec), Except.error err⟩] (.error status)

theorem createFunction_history (req : CreateFunctionRequest) :
    (createFunction req).Along (fun _ _ => True)
      (CreationHistory req.key (newSpec req) req.IsComplete) [] := by
  unfold createFunction createFunctionIfNotExists
  split
  · next missing =>
      apply CreationHistory.incomplete
      simpa only [CreateFunctionRequest.IsComplete, ← not_or, not_not] using missing
  · next given =>
      have complete : req.IsComplete := by
        simpa only [CreateFunctionRequest.IsComplete, not_or] using given
      simp only [along_bind]
      apply And.intro trivial
      intro response
      cases response with
      | ok function => exact .existing complete
      | error err =>
          cases err with
          | notFound =>
              apply And.intro trivial
              intro created
              cases created with
              | error err => exact .refused complete
              | ok written => exact .created complete
          | _ => exact .unread complete (by decide)

namespace CreationHistory

variable {key : NamespacedName} {spec : FunctionSpec} {complete : Prop} {own : ApiHistory}
variable {result : Except Status Bool}

/-- A creation comes after a read that finds nothing. -/
theorem readAbsent_of_create (history : CreationHistory key spec complete own result)
    {other : FunctionSpec} {response : Except StoreError Function}
    (member : ⟨.functions (.create key other), response⟩ ∈ own) :
    ⟨.functions (.get key), Except.error .notFound⟩ ∈ own := by
  cases history with
  | incomplete => cases member
  | existing | unread => cases List.mem_singleton.mp member
  | created | refused => exact List.mem_cons_self

theorem complete_of_ok {created : Bool} (history : CreationHistory key spec complete own (.ok created)) :
    complete := by
  cases history with
  | existing given | created given => exact given

/-- Without an error, a read that finds nothing is followed by a creation. -/
theorem ok_true_of_readAbsent {created : Bool}
    (history : CreationHistory key spec complete own (.ok created))
    (member : ⟨.functions (.get key), Except.error .notFound⟩ ∈ own) : created = true := by
  cases history with
  | existing => cases List.mem_singleton.mp member
  | created => rfl

theorem first_eq_get {answered : Answered ApiCall ApiCall.Response} {rest : ApiHistory}
    (history : CreationHistory key spec complete (answered :: rest) result) :
    answered.1 = .functions (.get key) := by
  cases history <;> rfl

theorem ne_nil (history : CreationHistory key spec complete own result) (given : complete) :
    own ≠ [] := by
  cases history with
  | incomplete missing => exact absurd given missing
  | _ => exact List.cons_ne_nil _ _

end CreationHistory

/-! ### Runs -/

section Runs

variable {Pid : Type} [DecidableEq Pid]

/-- The requests before their first calls. -/
def startCreations (cluster : Cluster) (requests : Pid → CreateFunctionRequest) :
    Processes Pid ApiCall ApiCall.Response (Except Status Bool) Cluster where
  shared := cluster
  program pid := createFunction (requests pid)

/-- Exactly one of the requests has created a new function, and none an
existing one; no request has failed. -/
structure CreatedOnce (key : NamespacedName) (cluster : Cluster)
    (last : Processes Pid ApiCall ApiCall.Response (Except Status Bool) Cluster) : Prop where
  new : cluster.functions.find? key = none →
    ∃ pid, last.program pid = .done (.ok true) ∧
      ∀ other, other ≠ pid → last.program other = .done (.ok false)
  old : cluster.functions.find? key ≠ none → ∀ pid, last.program pid = .done (.ok false)

/-- The process reads the function while it does not exist. -/
def ReadsWhileAbsent (key : NamespacedName) (events : List (ClusterEvent Pid)) (pid : Pid) : Prop :=
  ∃ event ∈ events, event.pid = pid ∧ event.request = .functions (.get key) ∧
    event.before.functions.find? key = none

variable {cluster : Cluster} {requests : Pid → CreateFunctionRequest} {key : NamespacedName}
variable {events early late : List (ClusterEvent Pid)} {event : ClusterEvent Pid} {pid : Pid}
variable {last : Processes Pid ApiCall ApiCall.Response (Except Status Bool) Cluster}

theorem execute_functions_available {call : FunctionCall} {elapsed : Nat} {before after : Cluster}
    {response : call.Response}
    (executed : (ApiCall.functions call).executeAvailable elapsed before = some (response, after)) :
    call.execute FunctionPatch.apply before.functions = (response, after.functions) := by
  obtain ⟨rfl, rfl⟩ := Prod.mk.inj (Option.some.inj executed)
  rfl

theorem history_of_ran (sameKey : ∀ pid, (requests pid).key = key)
    (ran : Processes.Ran ApiCall.executeAvailable (startCreations cluster requests) events last)
    {result : Except Status Bool} (isDone : last.program pid = .done result) :
    CreationHistory key (newSpec (requests pid)) (requests pid).IsComplete (Event.own pid events)
      result := by
  have history := ran.finished (createFunction_history (requests pid)) isDone
  rwa [sameKey pid] at history

/-- A read that finds nothing, and one that finds a function. -/
theorem find?_of_get {response : Except StoreError Function} {elapsed : Nat} {before after : Cluster}
    (executed : (ApiCall.functions (.get key)).executeAvailable elapsed before =
      some (response, after)) :
    (response = .error .notFound ∧ before.functions.find? key = none ∨
      ∃ function, response = .ok function ∧ before.functions.find? key = some function) ∧
        after.functions = before.functions := by
  have answered := execute_functions_available executed
  simp only [StoreCall.execute] at answered
  cases found : before.functions.find? key with
  | none =>
      rw [found] at answered
      obtain ⟨rfl, same⟩ := Prod.mk.inj answered
      exact ⟨.inl ⟨rfl, rfl⟩, same.symm⟩
  | some function =>
      rw [found] at answered
      obtain ⟨rfl, same⟩ := Prod.mk.inj answered
      exact ⟨.inr ⟨function, rfl, rfl⟩, same.symm⟩

/-- A creation is refused exactly where the function exists; it exists afterwards. -/
theorem find?_of_create {spec : FunctionSpec} {response : Except StoreError Function} {elapsed : Nat}
    {before after : Cluster}
    (executed : (ApiCall.functions (.create key spec)).executeAvailable elapsed before =
      some (response, after)) :
    ((∃ err, response = .error err) ↔ before.functions.find? key ≠ none) ∧
      after.functions.find? key ≠ none := by
  have answered := execute_functions_available executed
  simp only [StoreCall.execute] at answered
  cases response with
  | ok written =>
      obtain ⟨absent, -, stores⟩ := Store.create_eq_ok answered
      refine ⟨⟨by rintro ⟨err, ⟨⟩⟩, fun exists_ => absurd absent exists_⟩, ?_⟩
      rw [stores key, if_pos rfl]
      exact Option.some_ne_none written
  | error err =>
      have isPresent : before.functions.find? key ≠ none := by
        intro absent
        rw [Store.create, dif_pos absent] at answered
        cases (Prod.mk.inj answered).1
      rw [Store.create, dif_neg isPresent] at answered
      refine ⟨⟨fun _ => isPresent, fun _ => ⟨err, rfl⟩⟩, ?_⟩
      rw [← (Prod.mk.inj answered).2]
      exact isPresent

/-- The calls of the requests. -/
theorem request_of_ran (sameKey : ∀ pid, (requests pid).key = key)
    (ran : Processes.Ran ApiCall.executeAvailable (startCreations cluster requests)
      (early ++ event :: late) last) :
    event.request = .functions (.get key) ∨
      ∃ spec, event.request = .functions (.create key spec) := by
  have along : ((startCreations cluster requests).program event.pid).Along
      (fun _ request => request = .functions (.get key) ∨
        ∃ spec, request = .functions (.create key spec)) (fun _ _ => True) [] := by
    change (createFunction (requests event.pid)).Along _ _ _
    have isKey : ⟨(requests event.pid).namespace_, (requests event.pid).name⟩ = key :=
      sameKey event.pid
    unfold createFunction createFunctionIfNotExists
    rw [isKey]
    split
    · trivial
    · simp only [along_bind]
      apply And.intro (.inl rfl)
      intro response
      rcases response with (_ | _ | _ | _) | _
      · refine ⟨.inr ⟨_, rfl⟩, fun created => ?_⟩
        cases created <;> trivial
      all_goals trivial
  exact ran.assertion along

/-- The event creates the function. -/
def HasCreated (key : NamespacedName) (event : ClusterEvent Pid) : Prop :=
  ∃ spec written, event.answered = ⟨.functions (.create key spec), Except.ok written⟩

/-- After a call the function exists where it did before, or where the call
has created it. -/
theorem exists_after_iff (sameKey : ∀ pid, (requests pid).key = key)
    (ran : Processes.Ran ApiCall.executeAvailable (startCreations cluster requests)
      (early ++ event :: late) last) :
    event.after.functions.find? key ≠ none ↔
      event.before.functions.find? key ≠ none ∨ HasCreated key event := by
  obtain ⟨elapsed, executed⟩ := ran.executed List.mem_append_cons_self
  have isRequest := request_of_ran sameKey ran
  obtain ⟨pid, request, response, before, after⟩ := event
  dsimp only at isRequest executed ⊢
  rcases isRequest with rfl | ⟨spec, rfl⟩
  · rw [(find?_of_get executed).2]
    constructor
    · exact .inl
    · rintro (isPresent | ⟨spec, written, answered⟩)
      · exact isPresent
      · cases answered
  · obtain ⟨isRefused, afterwards⟩ := find?_of_create executed
    apply iff_of_true afterwards
    cases response with
    | error err => exact .inl (isRefused.mp ⟨err, rfl⟩)
    | ok written => exact .inr ⟨spec, written, rfl⟩

/-- The function exists at a moment where it did at the start, or where an
event has created it. -/
theorem exists_before_iff (sameKey : ∀ pid, (requests pid).key = key)
    (ran : Processes.Ran ApiCall.executeAvailable (startCreations cluster requests)
      (early ++ event :: late) last) :
    event.before.functions.find? key ≠ none ↔
      cluster.functions.find? key ≠ none ∨ ∃ earlier ∈ early, HasCreated key earlier := by
  refine ran.linked.run_induction_before rfl (motive := fun start state =>
    state.functions.find? key ≠ none ↔
      cluster.functions.find? key ≠ none ∨ ∃ earlier ∈ start, HasCreated key earlier) ?_ ?_
  · simp [startCreations]
  · rintro start middle rest rfl before
    rw [List.append_assoc, List.cons_append] at ran
    rw [exists_after_iff sameKey ran, before]
    simp only [List.mem_append, List.mem_singleton, or_and_right, exists_or, exists_eq_left, or_assoc]

theorem readsWhileAbsent_iff
    (ran : Processes.Ran ApiCall.executeAvailable (startCreations cluster requests) events last) :
    ReadsWhileAbsent key events pid ↔
      ⟨.functions (.get key), Except.error .notFound⟩ ∈ Event.own pid events := by
  constructor
  · rintro ⟨event, member, isOwn, isRead, absent⟩
    obtain ⟨elapsed, executed⟩ := ran.executed member
    refine Event.mem_own.mpr ⟨event, member, isOwn, ?_⟩
    obtain ⟨pid, request, response, before, after⟩ := event
    obtain rfl : request = .functions (.get key) := isRead
    rcases (find?_of_get executed).1 with ⟨rfl, -⟩ | ⟨function, -, found⟩
    · rfl
    · rw [show before.functions.find? key = none from absent] at found
      cases found
  · intro member
    obtain ⟨event, eventMember, isOwn, answeredEq, elapsed, executed⟩ := ran.executed_of_mem_own member
    refine ⟨event, eventMember, isOwn, congrArg Sigma.fst answeredEq, ?_⟩
    rcases (find?_of_get executed).1 with ⟨-, absent⟩ | ⟨function, isOk, -⟩
    · exact absent
    · cases isOk

/-- A request that creates the function has read that it is absent. -/
theorem readsWhileAbsent_of_create (sameKey : ∀ pid, (requests pid).key = key)
    (ran : Processes.Ran ApiCall.executeAvailable (startCreations cluster requests) events last)
    (finished : ∀ pid, ∃ result, last.program pid = .done result) (member : event ∈ events)
    (creates : HasCreated key event) : ReadsWhileAbsent key events event.pid := by
  obtain ⟨spec, written, answeredEq⟩ := creates
  have isOwn : ⟨.functions (.create key spec), Except.ok written⟩ ∈ Event.own event.pid events :=
    Event.mem_own.mpr ⟨event, member, rfl, answeredEq⟩
  obtain ⟨result, isDone⟩ := finished event.pid
  rw [readsWhileAbsent_iff ran]
  exact (history_of_ran sameKey ran isDone).readAbsent_of_create isOwn

/-- The request that alone reads while the function is absent creates it. -/
theorem created_of_readsAlone (sameKey : ∀ pid, (requests pid).key = key)
    (ran : Processes.Ran ApiCall.executeAvailable (startCreations cluster requests) events last)
    (finished : ∀ pid, ∃ result, last.program pid = .done result)
    (absent : cluster.functions.find? key = none) (reads : ReadsWhileAbsent key events pid)
    (alone : ∀ other, ReadsWhileAbsent key events other → other = pid) :
    last.program pid = .done (.ok true) := by
  obtain ⟨result, isDone⟩ := finished pid
  have history := history_of_ran sameKey ran isDone
  rw [readsWhileAbsent_iff ran] at reads
  rw [isDone]
  generalize ownEq : Event.own pid events = own at history reads
  cases history with
  | incomplete => cases reads
  | existing => cases List.mem_singleton.mp reads
  | unread given other =>
      cases List.mem_singleton.mp reads
      exact absurd rfl other
  | created => rfl
  | @refused err status given =>
      -- the function exists at the refused creation, so another request has created it
      have split : Event.own pid events =
          [⟨.functions (.get key), Except.error .notFound⟩] ++
            [⟨.functions (.create key (newSpec (requests pid))), Except.error err⟩] := ownEq
      obtain ⟨early, event, late, rfl, rfl, answeredEq, ownEarly, -⟩ :=
        Event.exists_split_of_own_eq split
      obtain ⟨elapsed, executed⟩ :=
        ran.executed_of_answered_eq (List.mem_append_right _ List.mem_cons_self) answeredEq
      have isPresent := (find?_of_create executed).1.mp ⟨err, rfl⟩
      rcases (exists_before_iff sameKey ran).mp isPresent with atStart | ⟨earlier, member, creates⟩
      · exact absurd absent atStart
      · have isOther := alone _ (readsWhileAbsent_of_create sameKey ran finished
          (List.mem_append_left _ member) creates)
        obtain ⟨spec, written, isCreation⟩ := creates
        have isOwn : ⟨.functions (.create key spec), Except.ok written⟩ ∈
            Event.own event.pid early :=
          Event.mem_own.mpr ⟨earlier, member, isOther, isCreation⟩
        rw [ownEarly] at isOwn
        cases List.mem_singleton.mp isOwn

/-- A complete request that does not read while the function is absent finds it. -/
theorem existing_of_notReads (sameKey : ∀ pid, (requests pid).key = key)
    (ran : Processes.Ran ApiCall.executeAvailable (startCreations cluster requests) events last)
    (finished : ∀ pid, ∃ result, last.program pid = .done result)
    (complete : (requests pid).IsComplete) (notReads : ¬ ReadsWhileAbsent key events pid) :
    last.program pid = .done (.ok false) := by
  obtain ⟨result, isDone⟩ := finished pid
  have history := history_of_ran sameKey ran isDone
  rw [readsWhileAbsent_iff ran] at notReads
  rw [isDone]
  generalize ownEq : Event.own pid events = own at history notReads
  cases history with
  | incomplete missing => exact absurd complete missing
  | existing => rfl
  | @unread err status given other =>
      have member : ⟨.functions (.get key), Except.error err⟩ ∈ Event.own pid events := by
        rw [ownEq]
        exact List.mem_cons_self
      obtain ⟨event, -, -, -, elapsed, executed⟩ := ran.executed_of_mem_own member
      rcases (find?_of_get executed).1 with ⟨isError, -⟩ | ⟨function, isOk, -⟩
      · exact absurd (Except.error.inj isError) other
      · cases isOk
  | created | refused => exact absurd List.mem_cons_self notReads

/-- The first call of all reads the function as it was at the start. -/
theorem exists_readsWhileAbsent [Nonempty Pid] (sameKey : ∀ pid, (requests pid).key = key)
    (ran : Processes.Ran ApiCall.executeAvailable (startCreations cluster requests) events last)
    (finished : ∀ pid, ∃ result, last.program pid = .done result)
    (complete : ∀ pid, (requests pid).IsComplete) (absent : cluster.functions.find? key = none) :
    ∃ pid, ReadsWhileAbsent key events pid := by
  obtain ⟨pid⟩ := ‹Nonempty Pid›
  obtain ⟨result, isDone⟩ := finished pid
  have nonempty := (history_of_ran sameKey ran isDone).ne_nil (complete pid)
  cases events with
  | nil => exact absurd rfl nonempty
  | cons event events =>
      obtain ⟨firstResult, firstDone⟩ := finished event.pid
      have history := history_of_ran sameKey ran firstDone
      rw [Event.own_cons_self] at history
      refine ⟨event.pid, event, List.mem_cons_self, rfl, history.first_eq_get, ?_⟩
      rw [ran.linked.1]
      exact absent

theorem not_readsWhileAbsent (sameKey : ∀ pid, (requests pid).key = key)
    (ran : Processes.Ran ApiCall.executeAvailable (startCreations cluster requests) events last)
    (isPresent : cluster.functions.find? key ≠ none) (pid : Pid) :
    ¬ ReadsWhileAbsent key events pid := by
  rintro ⟨event, member, -, -, absent⟩
  obtain ⟨early, late, rfl⟩ := List.append_of_mem member
  exact (exists_before_iff sameKey ran).mpr (.inl isPresent) absent

/-- Concurrent creations of one function have one creator and no errors exactly
where all requests are complete and at most one reads before the creation. -/
theorem createdOnce_iff [Nonempty Pid] (sameKey : ∀ pid, (requests pid).key = key)
    (ran : Processes.Ran ApiCall.executeAvailable (startCreations cluster requests) events last)
    (finished : ∀ pid, ∃ result, last.program pid = .done result) :
    CreatedOnce key cluster last ↔
      (∀ pid, (requests pid).IsComplete) ∧
        ∀ pid other, ReadsWhileAbsent key events pid → ReadsWhileAbsent key events other →
          pid = other := by
  constructor
  · intro once
    have answers : ∀ pid, ∃ created, last.program pid = .done (.ok created) := by
      intro pid
      by_cases absent : cluster.functions.find? key = none
      · obtain ⟨creator, isCreator, others⟩ := once.new absent
        by_cases same : pid = creator
        · exact ⟨true, same ▸ isCreator⟩
        · exact ⟨false, others pid same⟩
      · exact ⟨false, once.old absent pid⟩
    constructor
    · intro pid
      obtain ⟨created, isDone⟩ := answers pid
      exact (history_of_ran sameKey ran isDone).complete_of_ok
    · have creates : ∀ pid, ReadsWhileAbsent key events pid → last.program pid = .done (.ok true) := by
        intro pid reads
        obtain ⟨created, isDone⟩ := answers pid
        have history := history_of_ran sameKey ran isDone
        rw [readsWhileAbsent_iff ran] at reads
        rw [isDone, history.ok_true_of_readAbsent reads]
      intro pid other reads otherReads
      have absent : cluster.functions.find? key = none := by
        by_contra isPresent
        exact not_readsWhileAbsent sameKey ran isPresent pid reads
      obtain ⟨creator, -, others⟩ := once.new absent
      have isCreator : ∀ pid, ReadsWhileAbsent key events pid → pid = creator := by
        intro pid reads
        by_contra different
        have isTrue := creates pid reads
        rw [others pid different] at isTrue
        cases isTrue
      rw [isCreator pid reads, isCreator other otherReads]
  · rintro ⟨complete, alone⟩
    constructor
    · intro absent
      obtain ⟨pid, reads⟩ := exists_readsWhileAbsent sameKey ran finished complete absent
      refine ⟨pid, created_of_readsAlone sameKey ran finished absent reads
        fun other otherReads => alone other pid otherReads reads, fun other different => ?_⟩
      apply existing_of_notReads sameKey ran finished (complete other)
      exact fun otherReads => different (alone other pid otherReads reads)
    · intro isPresent pid
      exact existing_of_notReads sameKey ran finished (complete pid)
        (not_readsWhileAbsent sameKey ran isPresent pid)

end Runs

/-! ### Two requests -/

def createOne : CreateFunctionRequest where
  namespace_ := "default"
  name := "one"
  project := "projone"
  language := "go"
  gitCreds := ""
  isAsync := false

theorem createOne_isComplete : createOne.IsComplete :=
  ⟨by decide, by decide, by decide, by decide⟩

/-- Two requests for the same function, in a cluster without functions. -/
def twoCreations : Processes Bool ApiCall ApiCall.Response (Except Status Bool) Cluster :=
  startCreations ⟨.empty, .empty, .empty, 0⟩ fun _ => createOne

/-- The requests after a schedule. -/
def creationRun (schedule : List Bool) :
    List (ClusterEvent Bool) ×
      Processes Bool ApiCall ApiCall.Response (Except Status Bool) Cluster :=
  twoCreations.run ApiCall.executeAvailable (schedule.map fun pid => (pid, 0))

theorem successiveCreations_once :
    CreatedOnce createOne.key twoCreations.shared (creationRun [false, false, true]).2 := by
  have ran : Processes.Ran ApiCall.executeAvailable twoCreations
      (creationRun [false, false, true]).1 (creationRun [false, false, true]).2 :=
    Processes.ran_run _ _
  have finished : ∀ pid, ∃ result,
      (creationRun [false, false, true]).2.program pid = .done result := by
    intro pid
    cases pid with
    | false => exact ⟨.ok true, rfl⟩
    | true => exact ⟨.ok false, rfl⟩
  have onlyFirst : ∀ pid, ReadsWhileAbsent createOne.key (creationRun [false, false, true]).1 pid →
      pid = false := by
    intro pid reads
    cases pid with
    | false => rfl
    | true =>
        rw [readsWhileAbsent_iff ran] at reads
        cases List.mem_singleton.mp reads
  apply (createdOnce_iff (fun _ => rfl) ran finished).mpr
  apply And.intro (fun _ => createOne_isComplete)
  intro pid other reads otherReads
  rw [onlyFirst pid reads, onlyFirst other otherReads]

/-- Both requests read before one of them creates the function. -/
theorem overlappingCreations_fail :
    ¬ ∀ (cluster : Cluster) (requests : Bool → CreateFunctionRequest) (key : NamespacedName)
      (events : List (ClusterEvent Bool))
      (last : Processes Bool ApiCall ApiCall.Response (Except Status Bool) Cluster),
      (∀ pid, (requests pid).key = key ∧ (requests pid).IsComplete) →
        Processes.Ran ApiCall.executeAvailable (startCreations cluster requests) events last →
        (∀ pid, ∃ result, last.program pid = .done result) → CreatedOnce key cluster last := by
  intro always
  have finished : (creationRun [false, true, false, true]).2.program false = .done (.ok true) := rfl
  have failed : (creationRun [false, true, false, true]).2.program true =
      .done (.error (.internal "Failed to create function: "
        ⟨"failed to create function: ", .alreadyExists⟩)) := rfl
  have once : CreatedOnce createOne.key twoCreations.shared
      (creationRun [false, true, false, true]).2 := by
    apply always _ (fun _ => createOne) _ _ _ (fun _ => ⟨rfl, createOne_isComplete⟩)
      (Processes.ran_run twoCreations _)
    intro pid
    cases pid with
    | false => exact ⟨_, finished⟩
    | true => exact ⟨_, failed⟩
  obtain ⟨creator, isCreator, others⟩ := once.new rfl
  cases creator with
  | false =>
      have notCreated := others true (by decide)
      rw [failed] at notCreated
      cases notCreated
  | true =>
      rw [failed] at isCreator
      cases isCreator

end Operator

end Litefunctions
