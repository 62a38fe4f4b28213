import Litefunctions.Programs
import Mathlib.Data.List.Induction
import Mathlib.Logic.Function.Basic

/-!
# Interleaved runs of programs

Several programs share one state.  A schedule says which process makes its
next call and how the environment resolves what it leaves open; a call that
cannot be answered yet leaves its process waiting.  A run is recorded as the
list of its events.  The theorems here relate the list of all events to the
history of one process, and package the two inductions over runs: assertions
about the own history of a process, and invariants of the shared state.
-/

namespace Litefunctions

/-- One executed call of the process `pid`. -/
structure Event (Pid Call : Type) (Response : Call → Type) (Shared : Type) where
  pid : Pid
  request : Call
  response : Response request
  before : Shared
  after : Shared

namespace Event

variable {Pid Call Shared : Type} {Response : Call → Type}

/-- The call of an event with its response. -/
def answered (event : Event Pid Call Response Shared) : Program.Answered Call Response :=
  ⟨event.request, event.response⟩

/-- The calls that one process made in a list of events. -/
def own [DecidableEq Pid] (pid : Pid) (events : List (Event Pid Call Response Shared)) :
    List (Program.Answered Call Response) :=
  (events.filter (·.pid = pid)).map answered

/-- The shared state after a list of events that started in `first`. -/
def lastShared (first : Shared) (events : List (Event Pid Call Response Shared)) : Shared :=
  events.foldl (fun _ event => event.after) first

/-- Every event starts in the shared state that the one before it left. -/
def Linked (first : Shared) : List (Event Pid Call Response Shared) → Prop
  | [] => True
  | event :: events => event.before = first ∧ Linked event.after events

/-- Every event of a run has the property, given the events before it. -/
def AtEvery (property : List (Event Pid Call Response Shared) →
    Event Pid Call Response Shared → Prop)
    (events : List (Event Pid Call Response Shared)) : Prop :=
  ∀ early event late, events = early ++ event :: late → property early event

theorem atEvery_iff {property : List (Event Pid Call Response Shared) →
      Event Pid Call Response Shared → Prop}
    {events : List (Event Pid Call Response Shared)} :
    AtEvery property events ↔
      ∀ index : Fin events.length, property (events.take index) (events.get index) := by
  constructor
  · intro always index
    apply always _ _ (events.drop (index + 1))
    rw [List.get_eq_getElem, List.getElem_cons_drop, List.take_append_drop]
  · rintro always early event late rfl
    have atIndex := always ⟨early.length, by simp⟩
    simpa using atIndex

instance {property : List (Event Pid Call Response Shared) →
      Event Pid Call Response Shared → Prop}
    [∀ early event, Decidable (property early event)]
    (events : List (Event Pid Call Response Shared)) : Decidable (AtEvery property events) :=
  decidable_of_iff _ atEvery_iff.symm

theorem AtEvery.left {property : List (Event Pid Call Response Shared) →
      Event Pid Call Response Shared → Prop}
    {early late : List (Event Pid Call Response Shared)}
    (always : AtEvery property (early ++ late)) : AtEvery property early := by
  rintro first event rest rfl
  exact always first event (rest ++ late) (by simp)

section Own

variable [DecidableEq Pid]

@[simp]
theorem own_nil (pid : Pid) :
    own pid ([] : List (Event Pid Call Response Shared)) = [] :=
  rfl

@[simp]
theorem own_append (pid : Pid) (early late : List (Event Pid Call Response Shared)) :
    own pid (early ++ late) = own pid early ++ own pid late := by
  simp [own]

@[simp]
theorem own_cons_self (event : Event Pid Call Response Shared)
    (events : List (Event Pid Call Response Shared)) :
    own event.pid (event :: events) = event.answered :: own event.pid events := by
  simp [own]

theorem own_cons_other {event : Event Pid Call Response Shared} {pid : Pid}
    (other : event.pid ≠ pid) (events : List (Event Pid Call Response Shared)) :
    own pid (event :: events) = own pid events := by
  simp [own, other]

theorem mem_own {pid : Pid} {events : List (Event Pid Call Response Shared)}
    {answered : Program.Answered Call Response} :
    answered ∈ own pid events ↔
      ∃ event ∈ events, event.pid = pid ∧ event.answered = answered := by
  simp [own, and_assoc]

/-- A split of the own history is a split of the run. -/
theorem exists_split_of_own_eq {pid : Pid} {events : List (Event Pid Call Response Shared)}
    {early late : List (Program.Answered Call Response)}
    {answered : Program.Answered Call Response}
    (ownEq : own pid events = early ++ answered :: late) :
    ∃ first event rest, events = first ++ event :: rest ∧ event.pid = pid ∧
      event.answered = answered ∧ own pid first = early ∧ own pid rest = late := by
  obtain ⟨kept, others, filterEq, keptEq, othersEq⟩ := List.map_eq_append_iff.mp ownEq
  obtain ⟨event, tail, rfl, answeredEq, tailEq⟩ := List.map_eq_cons_iff.mp othersEq
  obtain ⟨first, middle, rfl, firstEq, middleEq⟩ := List.filter_eq_append_iff.mp filterEq
  obtain ⟨skipped, rest, rfl, skippedNone, isOwn, restEq⟩ :=
    List.filter_eq_cons_iff.mp middleEq
  refine ⟨first ++ skipped, event, rest, by simp, by simpa using isOwn, answeredEq, ?_, ?_⟩
  · rw [own_append, ← keptEq, ← firstEq]
    have none : skipped.filter (·.pid = pid) = [] := List.filter_eq_nil_iff.mpr skippedNone
    simp [own, none]
  · rw [← tailEq, ← restEq, own]

end Own

theorem exists_split_of_getElem? {events : List (Event Pid Call Response Shared)} {index : Nat}
    {pid : Pid} {answered : Program.Answered Call Response}
    (found : events[index]?.map (fun event => (event.pid, event.answered)) =
      some (pid, answered)) :
    ∃ event, events = events.take index ++ event :: events.drop (index + 1) ∧
      event.pid = pid ∧ event.answered = answered := by
  obtain ⟨event, eventEq, same⟩ := Option.map_eq_some_iff.mp found
  obtain ⟨bound, rfl⟩ := List.getElem?_eq_some_iff.mp eventEq
  refine ⟨events[index], ?_, congrArg Prod.fst same, congrArg Prod.snd same⟩
  rw [List.getElem_cons_drop, List.take_append_drop]

/-- Of two events of different processes one comes first. -/
theorem ordered_of_mem {events : List (Event Pid Call Response Shared)}
    {event other : Event Pid Call Response Shared} (member : event ∈ events)
    (otherMember : other ∈ events) (different : event.pid ≠ other.pid) :
    (∃ early between late, events = early ++ event :: (between ++ other :: late)) ∨
      ∃ early between late, events = early ++ other :: (between ++ event :: late) := by
  obtain ⟨early, late, rfl⟩ := List.append_of_mem member
  rcases List.mem_append.mp otherMember with before | after
  · obtain ⟨first, between, rfl⟩ := List.append_of_mem before
    exact .inr ⟨first, between, late, by simp⟩
  · rcases List.mem_cons.mp after with rfl | after
    · exact absurd rfl different
    · obtain ⟨between, rest, rfl⟩ := List.append_of_mem after
      exact .inl ⟨early, between, rest, rfl⟩

section Linked

variable {first : Shared} {events early late : List (Event Pid Call Response Shared)}
variable {event : Event Pid Call Response Shared}

@[simp]
theorem lastShared_nil :
    lastShared first ([] : List (Event Pid Call Response Shared)) = first :=
  rfl

@[simp]
theorem lastShared_cons :
    lastShared first (event :: events) = lastShared event.after events :=
  rfl

@[simp]
theorem lastShared_append :
    lastShared first (early ++ late) = lastShared (lastShared first early) late :=
  List.foldl_append

@[simp]
theorem linked_cons :
    Linked first (event :: events) ↔ event.before = first ∧ Linked event.after events :=
  Iff.rfl

theorem linked_append :
    Linked first (early ++ late) ↔ Linked first early ∧ Linked (lastShared first early) late := by
  induction early generalizing first with
  | nil => simp [Linked]
  | cons event early ih => simp [ih, and_assoc]

theorem Linked.before_eq (linked : Linked first (early ++ event :: late)) :
    event.before = lastShared first early :=
  (linked_append.mp linked).2.1

/-- Induction along the shared states of a run. -/
theorem Linked.run_induction {motive : List (Event Pid Call Response Shared) → Shared → Prop}
    (linked : Linked first events) (nil : motive [] first)
    (snoc : ∀ early event late, events = early ++ event :: late →
      motive early event.before → motive (early ++ [event]) event.after) :
    motive events (lastShared first events) := by
  induction events using List.reverseRecOn with
  | nil => exact nil
  | append_singleton early event ih =>
      have before := linked.before_eq
      have earlyHolds := ih (linked_append.mp linked).1 fun start middle rest split =>
        snoc start middle (rest ++ [event]) (by simp [split])
      rw [lastShared_append]
      exact snoc early event [] rfl (before ▸ earlyHolds)

/-- Induction along the shared states of a run, for one state at a time. -/
theorem Linked.run_induction_before {motive : List (Event Pid Call Response Shared) → Shared → Prop}
    (linked : Linked first events) (split : events = early ++ event :: late)
    (nil : motive [] first)
    (snoc : ∀ start middle rest, early = start ++ middle :: rest →
      motive start middle.before → motive (start ++ [middle]) middle.after) :
    motive early event.before := by
  subst split
  rw [linked.before_eq]
  exact (linked_append.mp linked).1.run_induction nil snoc

/-- A reflexive and transitive relation that every step respects holds between
any two moments of a run. -/
theorem Linked.relates (relation : Shared → Shared → Prop) (refl : ∀ state, relation state state)
    (trans : ∀ {first second third}, relation first second → relation second third →
      relation first third)
    (linked : Linked first events)
    (each : ∀ event ∈ events, relation event.before event.after) :
    relation first (lastShared first events) := by
  apply linked.run_induction (motive := fun _ state => relation first state) (refl first)
  intro early event late split related
  exact trans related (each event (by simp [split]))

theorem Linked.relates_of_mem (relation : Shared → Shared → Prop)
    (refl : ∀ state, relation state state)
    (trans : ∀ {first second third}, relation first second → relation second third →
      relation first third)
    (linked : Linked first (early ++ event :: late))
    (each : ∀ other ∈ early ++ event :: late, relation other.before other.after)
    {earlier : Event Pid Call Response Shared} (member : earlier ∈ early) :
    relation earlier.before event.before := by
  obtain ⟨start, middle, rfl⟩ := List.append_of_mem member
  rw [List.append_assoc, List.cons_append] at linked
  obtain ⟨-, beforeEq, linked⟩ := linked_append.mp linked
  rw [linked.before_eq]
  apply trans (each earlier (by simp))
  exact (linked_append.mp linked).1.relates relation refl trans fun other otherMember =>
    each other (by simp [otherMember])

end Linked

end Event

open Event

/-- Processes with their programs, and the state that they share. -/
structure Processes (Pid Call : Type) (Response : Call → Type) (Result Shared : Type) where
  shared : Shared
  program : Pid → Program Call Response Result

namespace Processes

variable {Pid Call Choice Result Shared : Type} {Response : Call → Type}
variable [DecidableEq Pid]
variable (execute : (request : Call) → Choice → Shared → Option (Response request × Shared))

/-- The process makes its next call.  There is no step when the process has
finished or its call cannot be answered. -/
def step (processes : Processes Pid Call Response Result Shared) (pid : Pid) (choice : Choice) :
    Option (Event Pid Call Response Shared × Processes Pid Call Response Result Shared) :=
  match processes.program pid with
  | .done _ => none
  | .call request next =>
      match execute request choice processes.shared with
      | none => none
      | some (response, after) =>
          some (⟨pid, request, response, processes.shared, after⟩,
            ⟨after, Function.update processes.program pid (next response)⟩)

/-- The events of a schedule and the processes after it. -/
def run : Processes Pid Call Response Result Shared → List (Pid × Choice) →
    List (Event Pid Call Response Shared) × Processes Pid Call Response Result Shared
  | processes, [] => ([], processes)
  | processes, (pid, choice) :: schedule =>
      match processes.step execute pid choice with
      | none => processes.run schedule
      | some (event, next) =>
          let rest := next.run schedule
          (event :: rest.1, rest.2)

/-- The processes can make these calls, in this order, and end up as `last`. -/
def Ran : Processes Pid Call Response Result Shared → List (Event Pid Call Response Shared) →
    Processes Pid Call Response Result Shared → Prop
  | processes, [], last => processes = last
  | processes, event :: events, last =>
      ∃ next, processes.program event.pid = .call event.request next ∧
        event.before = processes.shared ∧
        (∃ choice, execute event.request choice event.before =
          some (event.response, event.after)) ∧
        Ran ⟨event.after, Function.update processes.program event.pid (next event.response)⟩
          events last

variable {execute}
variable {first last : Processes Pid Call Response Result Shared}
variable {events early late : List (Event Pid Call Response Shared)}
variable {event : Event Pid Call Response Shared}

theorem ran_run (processes : Processes Pid Call Response Result Shared)
    (schedule : List (Pid × Choice)) :
    Ran execute processes (processes.run execute schedule).1
      (processes.run execute schedule).2 := by
  induction schedule generalizing processes with
  | nil => rfl
  | cons turn schedule ih =>
      obtain ⟨pid, choice⟩ := turn
      cases programEq : processes.program pid with
      | done result => simpa [run, step, programEq] using ih processes
      | call request next =>
          cases answerEq : execute request choice processes.shared with
          | none => simpa [run, step, programEq, answerEq] using ih processes
          | some answer =>
              simp only [run, step, programEq, answerEq]
              exact ⟨next, programEq, rfl, ⟨choice, answerEq⟩, ih _⟩

/-- Every event of a run comes from a turn of the schedule. -/
theorem executed_of_mem_run {processes : Processes Pid Call Response Result Shared}
    {schedule : List (Pid × Choice)} {event : Event Pid Call Response Shared}
    (member : event ∈ (processes.run execute schedule).1) :
    ∃ turn ∈ schedule, execute event.request turn.2 event.before =
      some (event.response, event.after) := by
  induction schedule generalizing processes with
  | nil => cases member
  | cons turn schedule ih =>
      obtain ⟨pid, choice⟩ := turn
      have later : ∀ {next : Processes Pid Call Response Result Shared},
          event ∈ (next.run execute schedule).1 → ∃ turn ∈ (pid, choice) :: schedule,
            execute event.request turn.2 event.before = some (event.response, event.after) := by
        intro next member
        obtain ⟨turn, turnMember, executed⟩ := ih member
        exact ⟨turn, List.mem_cons_of_mem _ turnMember, executed⟩
      cases programEq : processes.program pid with
      | done result =>
          simp only [run, step, programEq] at member
          exact later member
      | call request next =>
          cases answerEq : execute request choice processes.shared with
          | none =>
              simp only [run, step, programEq, answerEq] at member
              exact later member
          | some answer =>
              simp only [run, step, programEq, answerEq] at member
              rcases List.mem_cons.mp member with rfl | member
              · exact ⟨(pid, choice), List.mem_cons_self, answerEq⟩
              · exact later member

theorem ran_append :
    Ran execute first (early ++ late) last ↔
      ∃ middle, Ran execute first early middle ∧ Ran execute middle late last := by
  induction early generalizing first with
  | nil => simp [Ran]
  | cons event early ih =>
      simp only [List.cons_append, Ran, ih]
      constructor
      · rintro ⟨next, program, before, executed, middle, ranEarly, ranLate⟩
        exact ⟨middle, ⟨next, program, before, executed, ranEarly⟩, ranLate⟩
      · rintro ⟨middle, ⟨next, program, before, executed, ranEarly⟩, ranLate⟩
        exact ⟨next, program, before, executed, middle, ranEarly, ranLate⟩

namespace Ran

theorem linked (ran : Ran execute first events last) : Linked first.shared events := by
  induction events generalizing first with
  | nil => trivial
  | cons event events ih =>
      obtain ⟨next, -, before, -, rest⟩ := ran
      exact ⟨before, ih rest⟩

/-- Induction along a run. -/
theorem induction {motive : List (Event Pid Call Response Shared) →
      Processes Pid Call Response Result Shared → Prop}
    (ran : Ran execute first events last) (nil : motive [] first)
    (snoc : ∀ early (event : Event Pid Call Response Shared) late
      (processes : Processes Pid Call Response Result Shared)
      (next : Response event.request → Program Call Response Result),
      events = early ++ event :: late → Ran execute first early processes →
      motive early processes → processes.program event.pid = .call event.request next →
      event.before = processes.shared →
      (∃ choice, execute event.request choice event.before =
        some (event.response, event.after)) →
      motive (early ++ [event])
        ⟨event.after, Function.update processes.program event.pid (next event.response)⟩) :
    motive events last := by
  induction events using List.reverseRecOn generalizing last with
  | nil =>
      rw [← show first = last from ran]
      exact nil
  | append_singleton early event ih =>
      obtain ⟨processes, ranEarly, next, program, before, executed, rfl⟩ := ran_append.mp ran
      refine snoc early event [] processes next rfl ranEarly (ih ranEarly ?_) program before executed
      intro start middle rest earlier other split
      exact snoc start middle (rest ++ [event]) earlier other (by simp [split])

theorem lastShared (ran : Ran execute first events last) :
    last.shared = Event.lastShared first.shared events := by
  induction events generalizing first with
  | nil => rw [show first = last from ran, lastShared_nil]
  | cons event events ih =>
      obtain ⟨next, -, -, -, rest⟩ := ran
      exact ih rest

theorem executed (ran : Ran execute first events last) (member : event ∈ events) :
    ∃ choice, execute event.request choice event.before =
      some (event.response, event.after) := by
  induction events generalizing first with
  | nil => cases member
  | cons head events ih =>
      obtain ⟨next, -, -, executed, rest⟩ := ran
      rcases List.mem_cons.mp member with rfl | member
      · exact executed
      · exact ih rest member

theorem executed_of_answered_eq (ran : Ran execute first events last) (member : event ∈ events)
    {answered : Program.Answered Call Response} (answeredEq : event.answered = answered) :
    ∃ choice, execute answered.1 choice event.before = some (answered.2, event.after) := by
  subst answeredEq
  exact ran.executed member

/-- An answered call of a process was executed at some event. -/
theorem executed_of_mem_own (ran : Ran execute first events last) {pid : Pid}
    {answered : Program.Answered Call Response} (member : answered ∈ own pid events) :
    ∃ event ∈ events, event.pid = pid ∧ event.answered = answered ∧
      ∃ choice, execute answered.1 choice event.before = some (answered.2, event.after) := by
  obtain ⟨event, eventMember, isOwn, answeredEq⟩ := mem_own.mp member
  exact ⟨event, eventMember, isOwn, answeredEq, ran.executed_of_answered_eq eventMember answeredEq⟩

/-- The own history of a process leads from its first to its last program. -/
theorem reaches (ran : Ran execute first events last) (pid : Pid) :
    (first.program pid).Reaches (own pid events) (last.program pid) := by
  induction events generalizing first with
  | nil =>
      rw [show first = last from ran]
      rfl
  | cons event events ih =>
      obtain ⟨next, program, -, -, rest⟩ := ran
      have later := ih rest
      by_cases isOwn : event.pid = pid
      · subst isOwn
        rw [own_cons_self]
        simp only [Function.update_self] at later
        exact ⟨next, program, later⟩
      · rw [own_cons_other isOwn]
        simpa [Function.update_of_ne (Ne.symm isOwn)] using later

/-- At an event its process has reached the call of the event. -/
theorem reaches_call (ran : Ran execute first (early ++ event :: late) last) :
    ∃ next, (first.program event.pid).Reaches (own event.pid early)
      (.call event.request next) := by
  obtain ⟨middle, ranEarly, next, program, -⟩ := ran_append.mp ran
  exact ⟨next, program ▸ ranEarly.reaches event.pid⟩

/-- The assertion that holds along a program holds at each of its events, of
the own history of its process. -/
theorem assertion {assertion : List (Program.Answered Call Response) → Call → Prop}
    {finished : List (Program.Answered Call Response) → Result → Prop}
    (ran : Ran execute first (early ++ event :: late) last)
    (along : (first.program event.pid).Along assertion finished []) :
    assertion (own event.pid early) event.request := by
  obtain ⟨next, reaches⟩ := ran.reaches_call
  have there := along.of_reaches reaches
  rw [List.nil_append, Program.along_call] at there
  exact there.1

/-- The assertion along a program holds at each call of its own history. -/
theorem assertion_of_own_eq {assertion : List (Program.Answered Call Response) → Call → Prop}
    {finished : List (Program.Answered Call Response) → Result → Prop}
    (ran : Ran execute first events last) {pid : Pid}
    (along : (first.program pid).Along assertion finished [])
    {history rest : List (Program.Answered Call Response)}
    {answered : Program.Answered Call Response}
    (ownEq : own pid events = history ++ answered :: rest) : assertion history answered.1 := by
  obtain ⟨start, event, rest, rfl, rfl, rfl, rfl, -⟩ := exists_split_of_own_eq ownEq
  exact ran.assertion along

/-- Calls that are only made when none of them was made before are made once. -/
theorem eq_of_once {assertion : List (Program.Answered Call Response) → Call → Prop}
    {finished : List (Program.Answered Call Response) → Result → Prop} {once : Call → Prop}
    (ran : Ran execute first events last) {pid : Pid}
    (along : (first.program pid).Along assertion finished [])
    (noneBefore : ∀ history request, assertion history request → once request →
      ∀ answered ∈ history, ¬ once answered.1)
    {answered other : Program.Answered Call Response}
    (member : answered ∈ own pid events) (otherMember : other ∈ own pid events)
    (isOnce : once answered.1) (otherOnce : once other.1) : answered = other := by
  obtain ⟨early, late, ownEq⟩ := List.append_of_mem member
  rw [ownEq] at otherMember
  rcases List.mem_append.mp otherMember with before | after
  · exact absurd otherOnce
      (noneBefore _ _ (ran.assertion_of_own_eq along ownEq) isOnce other before)
  · rcases List.mem_cons.mp after with rfl | after
    · rfl
    · obtain ⟨middle, rest, rfl⟩ := List.append_of_mem after
      have split : own pid events = (early ++ answered :: middle) ++ other :: rest := by
        simpa using ownEq
      exact absurd isOnce
        (noneBefore _ _ (ran.assertion_of_own_eq along split) otherOnce answered (by simp))

/-- A finished process satisfies the assertion about finished programs. -/
theorem finished {assertion : List (Program.Answered Call Response) → Call → Prop}
    {finished : List (Program.Answered Call Response) → Result → Prop}
    (ran : Ran execute first events last) {pid : Pid}
    (along : (first.program pid).Along assertion finished [])
    {result : Result} (isDone : last.program pid = .done result) :
    finished (own pid events) result := by
  have there := along.of_reaches (isDone ▸ ran.reaches pid)
  rwa [List.nil_append, Program.along_done] at there

end Ran

end Processes

end Litefunctions
