import Litefunctions.PythonConsumers

/-!
# Consumer tasks that have ended

`fetch` and `ack` stand outside the error handler of a consumer, so an
exception there ends its task.  `CONSUMER_TASKS` keeps the task all the same,
and a refresh creates no other one for a name that it holds.  After a refresh
the listed functions have one running task each exactly when none of the tasks
that are kept for them has ended.
-/

namespace Litefunctions

namespace PythonRuntime

variable {project : String} {shared : Shared} {events early late : List PyEvent} {event : PyEvent}

/-! ### Tasks in a run -/

/-- The task that makes a call. -/
def PyCall.task? : PyCall → Option Nat
  | awaitTask task | pullSubscribe task _ | fetch task _ | ack task _ _ | loadModule task
  | handle task _ | publishOut task _ => some task
  | startProcess | reconcileConsumers | stop | publish _ | expire _ => none

/-- An exception outside of the error handler of `consume_function`. -/
def EndsTask : Program.Answered PyCall PyCall.Response → Prop
  | ⟨.pullSubscribe _ _, subscribed⟩ => subscribed = none
  | ⟨.fetch _ _, fetched⟩ => fetched = none
  | ⟨.ack _ _ _, acked⟩ => acked = false
  | _ => False

/-- The task has ended with an exception. -/
def HasEnded (events : List PyEvent) (task : Nat) : Prop :=
  ∃ answered ∈ Event.own (.task task) events, EndsTask answered

/-- The task is one of the function that has neither ended nor been cancelled. -/
def Consumes (events : List PyEvent) (shared : Shared) (name : String) (task : Nat) : Prop :=
  shared.tasks[task]? = some name ∧ shared.Alive task ∧ ¬ HasEnded events task

/-- The listed functions have one running task each, and others have none. -/
def RunsExactly (listed : List String) (events : List PyEvent) (shared : Shared) : Prop :=
  ∀ name, ((∃ task, Consumes events shared name task) ↔ name ∈ listed) ∧
    ∀ first second, Consumes events shared name first → Consumes events shared name second →
      first = second

/-- No task that is kept for a listed function has ended. -/
def KeepsRunning (listed : List String) (events : List PyEvent) (shared : Shared) : Prop :=
  ∀ name ∈ listed, ∀ task, shared.consumerTasks name = some task → ¬ HasEnded events task

/-- A return of `reconcile_consumers` for these names. -/
def Reconciles (listed : List String) (event : PyEvent) : Prop :=
  event.request = .reconcileConsumers ∧ event.after = event.before.reconcileConsumers listed

/-! ### The table of tasks -/

/-- A task is kept under the name of its function. -/
def Named (shared : Shared) : Prop :=
  ∀ name task, shared.consumerTasks name = some task → shared.tasks[task]? = some name

/-- What creating the tasks of some functions does. -/
structure Creates (names : List String) (before after : Shared) : Prop where
  named : Named after
  length : before.tasks.length ≤ after.tasks.length
  kept : ∀ name task, before.consumerTasks name = some task →
    after.consumerTasks name = some task
  found : ∀ name task, after.consumerTasks name = some task →
    before.consumerTasks name = some task ∨
      (name ∈ names ∧ before.consumerTasks name = none ∧ before.tasks.length ≤ task)
  created : ∀ name ∈ names, (after.consumerTasks name).isSome

theorem creates_createTask (named : Named shared) (name : String) :
    Creates [name] shared (shared.createTask name) := by
  unfold Shared.createTask
  split
  · next present =>
      refine ⟨named, le_rfl, fun _ _ => id, fun _ _ => .inl, fun other member => ?_⟩
      rw [List.mem_singleton.mp member]
      exact present
  · next absent =>
      rw [Option.not_isSome_iff_eq_none] at absent
      refine ⟨?_, by simp, ?_, ?_, ?_⟩
      · intro other task isTask
        by_cases same : other = name
        · subst same
          simp only [Function.update_self] at isTask
          obtain rfl := Option.some.inj isTask
          exact List.getElem?_concat_length
        · simp only [Function.update_of_ne same] at isTask
          have old := named other task isTask
          rw [List.getElem?_append_left (List.getElem?_eq_some_iff.mp old).1]
          exact old
      · intro other task isTask
        have different : other ≠ name := by
          rintro rfl
          rw [absent] at isTask
          cases isTask
        simpa [Function.update_of_ne different] using isTask
      · intro other task isTask
        by_cases same : other = name
        · subst same
          simp only [Function.update_self] at isTask
          exact .inr ⟨List.mem_singleton_self _, absent, (Option.some.inj isTask).le⟩
        · simp only [Function.update_of_ne same] at isTask
          exact .inl isTask
      · intro other member
        rw [List.mem_singleton.mp member]
        simp

theorem creates_foldl (names : List String) {shared : Shared} (named : Named shared) :
    Creates names shared (names.foldl Shared.createTask shared) := by
  induction names generalizing shared with
  | nil => exact ⟨named, le_rfl, fun _ _ => id, fun _ _ => .inl, by simp⟩
  | cons head names ih =>
      have one := creates_createTask named head
      have rest := ih one.named
      refine ⟨rest.named, one.length.trans rest.length,
        fun name task isTask => rest.kept name task (one.kept name task isTask), ?_, ?_⟩
      · intro name task isTask
        rcases rest.found name task isTask with old | ⟨member, absent, isNew⟩
        · rcases one.found name task old with old | ⟨member, absent, isNew⟩
          · exact .inl old
          · rw [List.mem_singleton.mp member] at absent ⊢
            exact .inr ⟨List.mem_cons_self, absent, isNew⟩
        · have absentBefore : shared.consumerTasks name = none := by
            cases old : shared.consumerTasks name with
            | none => rfl
            | some other =>
                rw [one.kept name other old] at absent
                cases absent
          exact .inr ⟨List.mem_cons_of_mem _ member, absentBefore, one.length.trans isNew⟩
      · intro name member
        rcases List.mem_cons.mp member with rfl | member
        · obtain ⟨task, isTask⟩ := Option.isSome_iff_exists.mp
            (one.created name (List.mem_singleton_self _))
          rw [List.foldl_cons, rest.kept name task isTask]
          rfl
        · exact rest.created name member

/-- The tasks of functions that are not listed are cancelled, and the others are
kept or created. -/
theorem consumerTasks_reconcile (named : Named shared) (listed : List String) :
    Named (shared.reconcileConsumers listed) ∧
      shared.tasks.length ≤ (shared.reconcileConsumers listed).tasks.length ∧
      (∀ name ∉ listed, (shared.reconcileConsumers listed).consumerTasks name = none) ∧
      ∀ name ∈ listed, ∃ task,
        (shared.reconcileConsumers listed).consumerTasks name = some task ∧
          (shared.consumerTasks name = some task ∨
            (shared.consumerTasks name = none ∧ shared.tasks.length ≤ task)) := by
  have kept : Named { shared with
      consumerTasks := fun name => if name ∈ listed then shared.consumerTasks name else none } := by
    intro name task isTask
    simp only at isTask
    split at isTask
    · exact named name task isTask
    · cases isTask
  have creates := creates_foldl listed kept
  refine ⟨creates.named, creates.length, ?_, ?_⟩
  · intro name unlisted
    cases isTask : (shared.reconcileConsumers listed).consumerTasks name with
    | none => rfl
    | some task =>
        rcases creates.found name task isTask with old | ⟨member, -⟩
        · simp only [if_neg unlisted] at old
          cases old
        · exact absurd member unlisted
  · intro name isListed
    obtain ⟨task, isTask⟩ := Option.isSome_iff_exists.mp (creates.created name isListed)
    refine ⟨task, isTask, ?_⟩
    rcases creates.found name task isTask with old | ⟨-, absent, isNew⟩
    · exact .inl (by simpa [isListed] using old)
    · exact .inr ⟨by simpa [isListed] using absent, isNew⟩

/-- What every answered call keeps. -/
structure Keeps (call : PyCall) (before after : Shared) : Prop where
  named : Named before → Named after
  length : Named before → before.tasks.length ≤ after.tasks.length
  alive : ∀ task, call.task? = some task → before.Alive task

/-- The calls of a task leave the table of tasks. -/
theorem keeps_of_alive {call : PyCall} {after : Shared} {task : Nat}
    (isOf : call.task? = some task) (alive : shared.Alive task) (tasks : after.tasks = shared.tasks)
    (consumerTasks : after.consumerTasks = shared.consumerTasks) : Keeps call shared after := by
  refine ⟨fun named name other isTask => ?_, fun _ => by rw [tasks], fun other isOther => ?_⟩
  · rw [tasks]
    exact named name other (consumerTasks ▸ isTask)
  · rw [isOf] at isOther
    exact Option.some.inj isOther ▸ alive

theorem publish_tasks (project : String) (msg : Msg) (shared : Shared) :
    (shared.publish project msg).tasks = shared.tasks ∧
      (shared.publish project msg).consumerTasks = shared.consumerTasks := by
  unfold Shared.publish
  split
  · exact ⟨rfl, rfl⟩
  · split <;> exact ⟨rfl, rfl⟩

theorem fetch_tasks {id : Nat} {again : Bool} {entry : Entry} {after : Shared}
    (fetched : shared.fetch id again = some (entry, after)) :
    after.tasks = shared.tasks ∧ after.consumerTasks = shared.consumerTasks := by
  unfold Shared.fetch at fetched
  split at fetched
  · cases fetched
  · split at fetched
    · obtain ⟨found, -, same⟩ := Option.map_eq_some_iff.mp fetched
      rw [← (Prod.mk.inj same).2]
      exact ⟨rfl, rfl⟩
    · obtain ⟨found, -, same⟩ := Option.map_eq_some_iff.mp fetched
      rw [← (Prod.mk.inj same).2]
      exact ⟨rfl, rfl⟩

theorem keeps_of_executed {call : PyCall} {circumstance : PyCall.Circumstance}
    {response : call.Response} {after : Shared}
    (executed : call.execute project circumstance shared = some (response, after)) :
    Keeps call shared after := by
  cases call with
  | startProcess =>
      simp only [PyCall.execute] at executed
      split at executed
      all_goals
        obtain ⟨-, rfl⟩ := Prod.mk.inj (Option.some.inj executed)
        exact ⟨id, fun _ => le_rfl, by rintro _ ⟨⟩⟩
  | reconcileConsumers =>
      obtain ⟨-, rfl⟩ := Prod.mk.inj (Option.some.inj executed)
      exact ⟨fun named => (consumerTasks_reconcile named _).1,
        fun named => (consumerTasks_reconcile named _).2.1, by rintro _ ⟨⟩⟩
  | stop =>
      obtain ⟨-, rfl⟩ := Prod.mk.inj (Option.some.inj executed)
      exact ⟨fun _ => by rintro _ _ ⟨⟩, fun _ => le_rfl, by rintro _ ⟨⟩⟩
  | publish msg =>
      obtain ⟨-, rfl⟩ := Prod.mk.inj (Option.some.inj executed)
      obtain ⟨tasks, consumerTasks⟩ := publish_tasks project msg shared
      refine ⟨fun named name task isTask => ?_, fun _ => by rw [tasks], by rintro _ ⟨⟩⟩
      rw [tasks]
      exact named name task (consumerTasks ▸ isTask)
  | expire sequence =>
      obtain ⟨-, rfl⟩ := Prod.mk.inj (Option.some.inj executed)
      exact ⟨id, fun _ => le_rfl, by rintro _ ⟨⟩⟩
  | awaitTask task =>
      obtain ⟨alive, answered⟩ := whileAlive_eq_some.mp executed
      obtain ⟨name, -, same⟩ := Option.map_eq_some_iff.mp answered
      obtain ⟨-, rfl⟩ := Prod.mk.inj same
      exact keeps_of_alive rfl alive rfl rfl
  | pullSubscribe task filter =>
      obtain ⟨alive, answered⟩ := whileAlive_eq_some.mp executed
      split at answered
      all_goals
        obtain ⟨-, rfl⟩ := Prod.mk.inj (Option.some.inj answered)
        exact keeps_of_alive rfl alive rfl rfl
  | fetch task id =>
      obtain ⟨alive, answered⟩ := whileAlive_eq_some.mp executed
      split at answered
      · obtain ⟨-, rfl⟩ := Prod.mk.inj (Option.some.inj answered)
        exact keeps_of_alive rfl alive rfl rfl
      · obtain ⟨⟨entry, next⟩, fetched, same⟩ := Option.map_eq_some_iff.mp answered
        obtain ⟨-, rfl⟩ := Prod.mk.inj same
        obtain ⟨tasks, consumerTasks⟩ := fetch_tasks fetched
        exact keeps_of_alive rfl alive tasks consumerTasks
  | ack task id sequence =>
      obtain ⟨alive, answered⟩ := whileAlive_eq_some.mp executed
      rcases answered_cases answered with ⟨-, rfl⟩ | ⟨-, rfl⟩
      · exact keeps_of_alive rfl alive rfl rfl
      · exact keeps_of_alive rfl alive rfl rfl
  | loadModule task =>
      obtain ⟨alive, answered⟩ := whileAlive_eq_some.mp executed
      obtain ⟨-, rfl⟩ := Prod.mk.inj (Option.some.inj answered)
      exact keeps_of_alive rfl alive rfl rfl
  | handle task entry =>
      obtain ⟨alive, answered⟩ := whileAlive_eq_some.mp executed
      obtain ⟨-, rfl⟩ := Prod.mk.inj (Option.some.inj answered)
      exact keeps_of_alive rfl alive rfl rfl
  | publishOut task out =>
      obtain ⟨alive, answered⟩ := whileAlive_eq_some.mp executed
      rcases answered_cases answered with ⟨-, rfl⟩ | ⟨-, rfl⟩
      · exact keeps_of_alive rfl alive rfl rfl
      · obtain ⟨tasks, consumerTasks⟩ := publish_tasks project out shared
        exact keeps_of_alive rfl alive tasks consumerTasks

/-! ### Runs -/

theorem publishOuts_makes (task : Nat) (subject : String) (outs : List Bytes) :
    (publishOuts task subject outs).Makes fun call => call.task? = some task := by
  induction outs with
  | nil => trivial
  | cons out outs ih =>
      apply And.intro rfl
      intro published
      cases published with
      | false => trivial
      | true => exact ih

theorem consumeMessages_makes (project name : String) (task id rounds : Nat) :
    (consumeMessages project name task id rounds).Makes fun call => call.task? = some task := by
  induction rounds with
  | zero => trivial
  | succ rounds ih =>
      apply And.intro rfl
      intro fetched
      cases fetched with
      | none => trivial
      | some entry =>
          apply And.intro rfl
          intro acked
          cases acked with
          | false => trivial
          | true =>
              have invokes : (invokeModule project name task entry).Makes
                  fun call => call.task? = some task := by
                apply And.intro rfl
                intro loaded
                cases loaded with
                | false => trivial
                | true => exact ⟨rfl, fun outs => publishOuts_makes task _ outs⟩
              exact invokes.bind fun _ => ih

theorem consumeFunction_makes (project : String) (rounds task : Nat) :
    (consumeFunction project rounds task).Makes fun call => call.task? = some task := by
  refine ⟨rfl, fun name => ⟨rfl, fun subscribed => ?_⟩⟩
  cases subscribed with
  | none => trivial
  | some id => exact consumeMessages_makes project name task id rounds

/-- Only tasks that have been created make calls. -/
theorem created_of_ran {hooks : List Nat} {changes : List Change} {rounds : Nat → Nat}
    {last : Runtime}
    (ran : Processes.Ran (PyCall.execute project) (start project hooks changes rounds)
      (early ++ event :: late) last) :
    Named event.before ∧
      ∀ task, event.before.tasks.length ≤ task → Event.own (.task task) early = [] := by
  refine ran.linked.run_induction_before
    (motive := fun early shared => Named shared ∧
      ∀ task, shared.tasks.length ≤ task → Event.own (.task task) early = [])
    rfl ?_ fun begun middle rest split known => ?_
  · exact ⟨by rintro _ _ ⟨⟩, fun _ _ => rfl⟩
  · subst split
    have member : middle ∈ (begun ++ middle :: rest) ++ event :: late := by simp
    obtain ⟨circumstance, executed⟩ := ran.executed member
    have keeps := keeps_of_executed executed
    apply And.intro (keeps.named known.1)
    intro task isNew
    have none := known.2 task ((keeps.length known.1).trans isNew)
    rw [Event.own_append, none, List.nil_append]
    refine Event.own_cons_other (fun isTask => ?_) []
    rw [List.append_assoc, List.cons_append] at ran
    have along : ((start project hooks changes rounds).program middle.pid).Along
        (fun _ request => request.task? = some task) (fun _ _ => True) [] := by
      rw [isTask]
      exact (consumeFunction_makes project (rounds task) task).along []
    have makes : middle.request.task? = some task := ran.assertion along
    obtain ⟨name, named, -⟩ := keeps.alive task makes
    have created : task < middle.before.tasks.length := (List.getElem?_eq_some_iff.mp named).1
    have grows := keeps.length known.1
    omega

/-- A refresh leaves the listed functions with one running task each exactly
when no task that it keeps has ended. -/
theorem runsExactly_reconcile_iff (listed : List String) (named : Named shared)
    (unborn : ∀ task, shared.tasks.length ≤ task → Event.own (.task task) early = []) :
    RunsExactly listed early (shared.reconcileConsumers listed) ↔
      KeepsRunning listed early shared := by
  obtain ⟨namedAfter, -, cancelled, kept⟩ := consumerTasks_reconcile named listed
  have isTask_of_consumes {name : String} {task : Nat}
      (consumes : Consumes early (shared.reconcileConsumers listed) name task) :
      (shared.reconcileConsumers listed).consumerTasks name = some task := by
    obtain ⟨isNamed, ⟨other, isOther, isTask⟩, -⟩ := consumes
    obtain rfl := Option.some.inj (isNamed.symm.trans isOther)
    exact isTask
  have consumes_of_isTask {name : String} {task : Nat}
      (isTask : (shared.reconcileConsumers listed).consumerTasks name = some task)
      (running : ¬ HasEnded early task) :
      Consumes early (shared.reconcileConsumers listed) name task :=
    ⟨namedAfter name task isTask, ⟨name, namedAfter name task isTask, isTask⟩, running⟩
  constructor
  · intro exactly name isListed task isTask
    obtain ⟨running, consumes⟩ := (exactly name).1.mpr isListed
    obtain ⟨after, isAfter, same | ⟨absent, -⟩⟩ := kept name isListed
    · have sameTask := Option.some.inj ((isTask_of_consumes consumes).symm.trans isAfter)
      obtain rfl := Option.some.inj (isTask.symm.trans same)
      rw [← sameTask]
      exact consumes.2.2
    · rw [isTask] at absent
      cases absent
  · intro keepsRunning name
    refine ⟨⟨?_, fun isListed => ?_⟩, fun first second firstConsumes secondConsumes => ?_⟩
    · rintro ⟨task, consumes⟩
      by_contra unlisted
      have isTask := isTask_of_consumes consumes
      rw [cancelled name unlisted] at isTask
      cases isTask
    · obtain ⟨task, isTask, old | ⟨-, isNew⟩⟩ := kept name isListed
      · exact ⟨task, consumes_of_isTask isTask (keepsRunning name isListed task old)⟩
      · refine ⟨task, consumes_of_isTask isTask ?_⟩
        rintro ⟨answered, member, -⟩
        rw [unborn task isNew] at member
        cases member
    · exact Option.some.inj
        ((isTask_of_consumes firstConsumes).symm.trans (isTask_of_consumes secondConsumes))

/-- In every run, and at each return of `reconcile_consumers`. -/
theorem runsExactly_iff (project : String) (hooks : List Nat) (changes : List Change)
    (rounds : Nat → Nat) (schedule : List (Pid × PyCall.Circumstance)) :
    Event.AtEvery (fun early event => ∀ listed, Reconciles listed event →
        (RunsExactly listed early event.after ↔ KeepsRunning listed early event.before))
      ((start project hooks changes rounds).run (PyCall.execute project) schedule).1 := by
  rintro early event late split listed ⟨-, reconciled⟩
  have ran : Processes.Ran (PyCall.execute project) (start project hooks changes rounds) _ _ :=
    Processes.ran_run _ schedule
  rw [split] at ran
  obtain ⟨named, unborn⟩ := created_of_ran ran
  rw [reconciled]
  exact runsExactly_reconcile_iff listed named unborn

/-! ### A consumer that is not replaced -/

/-- A runtime that is refreshed once after its start. -/
def refreshedOnce : Runtime :=
  start "shop" [1] [] fun _ => 1

/-- The consumer of `f` fails to fetch before the refresh. -/
def fetchFails : List (Pid × PyCall.Circumstance) :=
  [(.process, {}), (.process, { functions := ["f"] }), (.task 0, {}), (.task 0, {}),
    (.task 0, { failed := true }), (.process, { functions := ["f"] })]

/-- The refresh finds the task of `f` in the table, which has ended. -/
theorem fetchFails_refresh :
    ∃ early event, (refreshedOnce.run (PyCall.execute "shop") fetchFails).1 = early ++ [event] ∧
      Reconciles ["f"] event ∧ HasEnded early 0 ∧ event.after.consumerTasks "f" = some 0 :=
  ⟨_, _, (List.dropLast_append_getLast? _ rfl).symm, ⟨rfl, rfl⟩,
    ⟨⟨.fetch 0 0, none⟩, .tail _ (.tail _ (.head _)), rfl⟩, rfl⟩

theorem fetchFails_notReplaced :
    ¬ ∀ (project : String) (hooks : List Nat) (changes : List Change) (rounds : Nat → Nat)
        (schedule : List (Pid × PyCall.Circumstance)),
      Event.AtEvery (fun early event => ∀ listed, Reconciles listed event →
          RunsExactly listed early event.after)
        ((start project hooks changes rounds).run (PyCall.execute project) schedule).1 := by
  intro exactly
  obtain ⟨early, event, split, reconciles, ended, kept⟩ := fetchFails_refresh
  have runs := exactly "shop" [1] [] (fun _ => 1) fetchFails early event [] split ["f"] reconciles
  obtain ⟨task, named, ⟨name, isNamed, isTask⟩, running⟩ :=
    (runs "f").1.mpr (List.mem_singleton_self _)
  obtain rfl := Option.some.inj (named.symm.trans isNamed)
  obtain rfl := Option.some.inj (kept.symm.trans isTask)
  exact running ended

end PythonRuntime

end Litefunctions
