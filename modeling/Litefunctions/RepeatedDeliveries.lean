import Litefunctions.Agreements
import Litefunctions.PythonConsumers

/-!
# Messages that are delivered again

A consumer acknowledges each message before it handles it, so that no message
is handled twice by one task.  But every new task of a function reads the
stream from its start, and handles again what an earlier task has handled.
Where new consumers find none of that, every message is handled once at most.
-/

namespace Litefunctions

namespace PythonRuntime

open Subject

variable {project name : String} {shared later : Shared} {task id : Nat} {reader : Reader}
variable {entry : Entry}

/-! ### What tasks leave to each other -/

/-- What holds in every state. -/
structure Consistent (shared : Shared) : Prop where
  once : shared.handled.Nodup
  known : ∀ name sequence, (name, sequence) ∈ shared.handled → sequence ≤ shared.lastSequence
  retained : ∀ entry ∈ shared.entries, entry.sequence ≤ shared.lastSequence
  named : ∀ name task, shared.consumerTasks name = some task → shared.tasks[task]? = some name
  unused : ∀ id, shared.nextReader ≤ id → shared.reader id = none

/-- What a task that has been created relies on: nobody else uses its readers
or handles messages for its function. -/
structure Leaves (task : Nat) (before after : Shared) : Prop where
  tasks : ∀ name, before.tasks[task]? = some name → after.tasks[task]? = some name
  alive : ∀ name, before.tasks[task]? = some name → after.Alive task → before.Alive task
  readers : ∀ id reader, before.reader id = some reader → reader.owner = task →
    after.reader id = some reader
  handled : ∀ name, before.tasks[task]? = some name → after.Alive task → ∀ sequence,
    (name, sequence) ∈ after.handled → (name, sequence) ∈ before.handled
  kept : ∀ message ∈ before.handled, message ∈ after.handled
  entries : ∀ entry ∈ after.entries, entry ∈ before.entries ∨
    ∀ name, (name, entry.sequence) ∉ before.handled
  lastSequence : before.lastSequence ≤ after.lastSequence

theorem leaves_refl : Leaves task shared shared :=
  ⟨fun _ => id, fun _ _ => id, fun _ _ found _ => found, fun _ _ _ _ => id, fun _ => id,
    fun _ => .inl, le_rfl⟩

theorem Leaves.trans {middle : Shared} (early : Leaves task shared middle)
    (late : Leaves task middle later) : Leaves task shared later where
  tasks name named := late.tasks name (early.tasks name named)
  alive name named alive :=
    early.alive name named (late.alive name (early.tasks name named) alive)
  readers id reader found owner :=
    late.readers id reader (early.readers id reader found owner) owner
  handled name named alive sequence member := by
    have stillNamed := early.tasks name named
    exact early.handled name named (late.alive name stillNamed alive) sequence
      (late.handled name stillNamed alive sequence member)
  kept message member := late.kept message (early.kept message member)
  entries entry member := by
    rcases late.entries entry member with old | unhandled
    · exact early.entries entry old
    · exact .inr fun name handled => unhandled name (early.kept _ handled)
  lastSequence := early.lastSequence.trans late.lastSequence

/-- Two running tasks have different functions. -/
theorem ne_of_alive {other : Nat} {otherName : String}
    (different : other ≠ task) (alive : shared.Alive task) (otherAlive : shared.Alive other)
    (named : shared.tasks[task]? = some name) (otherNamed : shared.tasks[other]? = some otherName) :
    otherName ≠ name := by
  rintro rfl
  obtain ⟨_, isNamed, isTask⟩ := alive
  obtain ⟨_, isOtherNamed, isOtherTask⟩ := otherAlive
  rw [named] at isNamed
  rw [otherNamed] at isOtherNamed
  obtain rfl := Option.some.inj isNamed
  obtain rfl := Option.some.inj isOtherNamed
  rw [isTask] at isOtherTask
  exact different (Option.some.inj isOtherTask).symm

/-! ### The steps of others -/

/-- Changes of the stream alone. -/
theorem Consistent.stream (consistent : Consistent shared) {stream : Option (List Entry)}
    {lastSequence : Nat} (more : shared.lastSequence ≤ lastSequence)
    (retained : ∀ entry ∈ stream.getD [], entry.sequence ≤ lastSequence) :
    Consistent { shared with stream, lastSequence } where
  once := consistent.once
  known name sequence member := (consistent.known name sequence member).trans more
  retained := retained
  named := consistent.named
  unused := consistent.unused

theorem leaves_stream {stream : Option (List Entry)} {lastSequence : Nat}
    (more : shared.lastSequence ≤ lastSequence)
    (entries : ∀ entry ∈ stream.getD [], entry ∈ shared.entries ∨
      ∀ name, (name, entry.sequence) ∉ shared.handled) :
    Leaves task shared { shared with stream, lastSequence } :=
  ⟨fun _ => id, fun _ _ => id, fun _ _ found _ => found, fun _ _ _ _ => id, fun _ => id, entries,
    more⟩

theorem Consistent.addStream (consistent : Consistent shared) : Consistent shared.addStream :=
  consistent.stream le_rfl consistent.retained

theorem leaves_addStream : Leaves task shared shared.addStream :=
  leaves_stream le_rfl fun _ => .inl

/-- A published message is new to every function. -/
theorem publish_spec (consistent : Consistent shared) (project : String) (msg : Msg) :
    Consistent (shared.publish project msg) ∧
      ∀ task, Leaves task shared (shared.publish project msg) := by
  unfold Shared.publish
  split
  · exact ⟨consistent, fun _ => leaves_refl⟩
  · next entries isStream =>
      have entriesEq : shared.entries = entries := by rw [Shared.entries, isStream, Option.getD_some]
      split
      · refine ⟨consistent.stream (Nat.le_succ _) ?_, fun task => leaves_stream (Nat.le_succ _) ?_⟩
        · intro entry member
          rcases List.mem_append.mp member with old | new
          · exact (consistent.retained entry (entriesEq ▸ old)).trans (Nat.le_succ _)
          · rw [List.mem_singleton.mp new]
        · intro entry member
          rcases List.mem_append.mp member with old | new
          · exact .inl (entriesEq ▸ old)
          · refine .inr fun name handled => ?_
            have known := consistent.known name entry.sequence handled
            rw [List.mem_singleton.mp new] at known
            exact Nat.not_succ_le_self _ known
      · exact ⟨consistent, fun _ => leaves_refl⟩

theorem mem_entries_expire {sequence : Nat} (member : entry ∈ (shared.expire sequence).entries) :
    entry ∈ shared.entries := by
  unfold Shared.expire Shared.entries at *
  cases stream : shared.stream with
  | none =>
      rw [stream] at member
      cases member
  | some entries =>
      rw [stream] at member
      exact List.mem_of_mem_filter member

theorem Consistent.expire (consistent : Consistent shared) (sequence : Nat) :
    Consistent (shared.expire sequence) :=
  consistent.stream le_rfl fun entry member => consistent.retained entry (mem_entries_expire member)

theorem leaves_expire (sequence : Nat) : Leaves task shared (shared.expire sequence) :=
  leaves_stream le_rfl fun _ member => .inl (mem_entries_expire member)

/-- Some tasks are cancelled. -/
theorem Consistent.cancel (consistent : Consistent shared) {consumerTasks : String → Option Nat}
    (fewer : ∀ name task, consumerTasks name = some task → shared.consumerTasks name = some task) :
    Consistent { shared with consumerTasks } where
  once := consistent.once
  known := consistent.known
  retained := consistent.retained
  named name task isTask := consistent.named name task (fewer name task isTask)
  unused := consistent.unused

theorem leaves_cancel {consumerTasks : String → Option Nat}
    (fewer : ∀ name task, consumerTasks name = some task → shared.consumerTasks name = some task) :
    Leaves task shared { shared with consumerTasks } where
  tasks _ := id
  alive _ _ := by
    rintro ⟨name, named, isTask⟩
    exact ⟨name, named, fewer name task isTask⟩
  readers _ _ found _ := found
  handled _ _ _ _ := id
  kept _ := id
  entries _ := .inl
  lastSequence := le_rfl

theorem getElem?_append_of_eq_some {tasks : List String} (named : tasks[task]? = some name)
    (later : List String) : (tasks ++ later)[task]? = some name := by
  rw [List.getElem?_append_left (List.getElem?_eq_some_iff.mp named).1, named]

theorem createTask_spec (consistent : Consistent shared) (name : String) :
    Consistent (shared.createTask name) ∧ ∀ task, Leaves task shared (shared.createTask name) := by
  unfold Shared.createTask
  split
  · exact ⟨consistent, fun _ => leaves_refl⟩
  · constructor
    · refine ⟨consistent.once, consistent.known, consistent.retained, ?_, consistent.unused⟩
      intro other task isTask
      by_cases same : other = name
      · subst same
        have isNew : some shared.tasks.length = some task := by simpa using isTask
        rw [← Option.some.inj isNew]
        simp
      · have isOld : shared.consumerTasks other = some task := by simpa [same] using isTask
        exact getElem?_append_of_eq_some (consistent.named other task isOld) _
    · intro task
      have alive : ∀ old, shared.tasks[task]? = some old →
          (Shared.mk shared.stream shared.lastSequence shared.reader shared.nextReader
            (shared.tasks ++ [name])
            (Function.update shared.consumerTasks name (some shared.tasks.length))
            shared.handled).Alive task → shared.Alive task := by
        rintro old named ⟨found, isFound, isTask⟩
        obtain rfl : old = found :=
          Option.some.inj ((getElem?_append_of_eq_some named [name]).symm.trans isFound)
        refine ⟨old, named, ?_⟩
        by_cases same : old = name
        · subst same
          have isNew : some shared.tasks.length = some task := by simpa using isTask
          have bound := (List.getElem?_eq_some_iff.mp named).1
          rw [Option.some.inj isNew] at bound
          exact absurd bound (Nat.lt_irrefl task)
        · simpa [same] using isTask
      exact
        { tasks := fun old named => getElem?_append_of_eq_some named _
          alive := alive
          readers := fun _ _ found _ => found
          handled := fun _ _ _ _ => id
          kept := fun _ => id
          entries := fun _ => .inl
          lastSequence := le_rfl }

theorem reconcileConsumers_spec (consistent : Consistent shared) (desired : List String) :
    Consistent (shared.reconcileConsumers desired) ∧
      ∀ task, Leaves task shared (shared.reconcileConsumers desired) := by
  have created : ∀ (names : List String) {first : Shared}, Consistent first →
      (∀ task, Leaves task shared first) → Consistent (names.foldl Shared.createTask first) ∧
        ∀ task, Leaves task shared (names.foldl Shared.createTask first) := by
    intro names
    induction names with
    | nil => exact fun holds leaves => ⟨holds, leaves⟩
    | cons name names ih =>
        intro first holds leaves
        have ⟨holdsNext, leavesNext⟩ := createTask_spec holds name
        exact ih holdsNext fun task => (leaves task).trans (leavesNext task)
  have fewer : ∀ name task, (if name ∈ desired then shared.consumerTasks name else none) =
      some task → shared.consumerTasks name = some task := by
    intro name task isTask
    split at isTask
    · exact isTask
    · cases isTask
  exact created desired (consistent.cancel fewer) fun task => leaves_cancel fewer

theorem Consistent.stop (consistent : Consistent shared) : Consistent shared.stop :=
  consistent.cancel nofun

theorem leaves_stop : Leaves task shared shared.stop :=
  leaves_cancel nofun

/-! ### The steps of tasks -/

/-- A step on a reader of another task. -/
theorem leaves_reader {other : Nat} {readers : Nat → Option Reader} {nextReader : Nat}
    (different : other ≠ task)
    (own : ∀ id reader, shared.reader id = some reader → reader.owner ≠ other →
      readers id = some reader) :
    Leaves task shared { shared with reader := readers, nextReader } where
  tasks _ := id
  alive _ _ := id
  readers id reader found owner :=
    own id reader found (owner ▸ different.symm)
  handled _ _ _ _ := id
  kept _ := id
  entries _ := .inl
  lastSequence := le_rfl

theorem pullSubscribe_spec (consistent : Consistent shared) (task : Nat) (filter : String) :
    Consistent (shared.pullSubscribe task filter).2 ∧
      ∀ other, other ≠ task → Leaves other shared (shared.pullSubscribe task filter).2 := by
  constructor
  · refine ⟨consistent.once, consistent.known, consistent.retained, consistent.named, ?_⟩
    intro id bound
    have bound : shared.nextReader + 1 ≤ id := bound
    show Function.update shared.reader shared.nextReader _ id = none
    rw [Function.update_of_ne (by omega)]
    exact consistent.unused id (by omega)
  · intro other different
    apply leaves_reader different.symm
    intro id reader found _
    have isUsed : id ≠ shared.nextReader := by
      rintro rfl
      rw [consistent.unused _ le_rfl] at found
      cases found
    rw [Function.update_of_ne isUsed, found]

/-- A reader moves on. -/
theorem consistent_updateReader (consistent : Consistent shared)
    (found : shared.reader id = some reader) (next : Option Reader) :
    Consistent { shared with reader := Function.update shared.reader id next } where
  once := consistent.once
  known := consistent.known
  retained := consistent.retained
  named := consistent.named
  unused other bound := by
    have isUsed : other ≠ id := by
      rintro rfl
      rw [consistent.unused _ bound] at found
      cases found
    show Function.update shared.reader id next other = none
    rw [Function.update_of_ne isUsed]
    exact consistent.unused other bound

theorem leaves_updateReader {other : Nat} (different : other ≠ reader.owner)
    (found : shared.reader id = some reader) (next : Option Reader) :
    Leaves other shared { shared with reader := Function.update shared.reader id next } := by
  apply leaves_reader different.symm
  intro otherId otherReader otherFound owner
  have otherIdEq : otherId ≠ id := by
    rintro rfl
    rw [found] at otherFound
    exact owner (congrArg Reader.owner (Option.some.inj otherFound)).symm
  rw [Function.update_of_ne otherIdEq, otherFound]

/-! ### What a task knows of its messages -/

/-- A task reads the messages of its function; as long as it runs, nobody has
handled what its reader can still deliver. -/
structure Reading (task id : Nat) (name : String) (reader : Reader) (shared : Shared) : Prop where
  named : shared.tasks[task]? = some name
  found : shared.reader id = some reader
  owner : reader.owner = task
  delivered : ∀ sequence ∈ reader.unacked, sequence < reader.position
  ahead : shared.Alive task → ∀ entry ∈ shared.entries,
    matchesPattern reader.filter entry.msg.subject = true → reader.position ≤ entry.sequence →
      (name, entry.sequence) ∉ shared.handled
  unacked : shared.Alive task → ∀ sequence ∈ reader.unacked, (name, sequence) ∉ shared.handled

/-- The task holds a message that nobody has handled. -/
structure Holding (task id : Nat) (name : String) (reader : Reader) (entry : Entry)
    (shared : Shared) : Prop extends Reading task id name reader shared where
  passed : entry.sequence < reader.position
  known : entry.sequence ≤ shared.lastSequence
  unhandled : shared.Alive task → (name, entry.sequence) ∉ shared.handled

theorem Reading.leaves (reading : Reading task id name reader shared)
    (leaves : Leaves task shared later) : Reading task id name reader later where
  named := leaves.tasks name reading.named
  found := leaves.readers id reader reading.found reading.owner
  owner := reading.owner
  delivered := reading.delivered
  ahead alive entry member isMatch isAhead handled := by
    have before := leaves.handled name reading.named alive entry.sequence handled
    rcases leaves.entries entry member with old | unhandled
    · exact reading.ahead (leaves.alive name reading.named alive) entry old isMatch isAhead before
    · exact unhandled name before
  unacked alive sequence member handled :=
    reading.unacked (leaves.alive name reading.named alive) sequence member
      (leaves.handled name reading.named alive sequence handled)

theorem Holding.leaves (holding : Holding task id name reader entry shared)
    (leaves : Leaves task shared later) : Holding task id name reader entry later where
  toReading := holding.toReading.leaves leaves
  passed := holding.passed
  known := holding.known.trans leaves.lastSequence
  unhandled alive handled :=
    holding.unhandled (leaves.alive name holding.named alive)
      (leaves.handled name holding.named alive entry.sequence handled)

/-- The first state of a reader that finds nothing handled. -/
theorem reading_pullSubscribe {filter : String} (named : shared.tasks[task]? = some name)
    (findsUnhandled : FindsUnhandled shared (.pullSubscribe task filter)) :
    Reading task shared.nextReader name ⟨task, filter, 0, []⟩
      (shared.pullSubscribe task filter).2 where
  named := named
  found := Function.update_self _ _ _
  owner := rfl
  delivered := nofun
  ahead _ entry member isMatch _ := findsUnhandled name named entry member isMatch
  unacked := nofun

/-- A message that is fetched was not handled. -/
theorem Reading.fetch (reading : Reading task id name reader shared) (consistent : Consistent shared)
    (alive : shared.Alive task) {again : Bool}
    (fetched : shared.fetch id again = some (entry, later)) :
    Consistent later ∧ (∀ other, other ≠ task → Leaves other shared later) ∧
      ∃ next, Holding task id name next entry later := by
  simp only [Shared.fetch, reading.found] at fetched
  split at fetched
  · obtain ⟨found, isFound, same⟩ := Option.map_eq_some_iff.mp fetched
    obtain ⟨rfl, rfl⟩ := Prod.mk.inj same
    have isUnacked : found.sequence ∈ reader.unacked := by simpa using List.find?_some isFound
    refine ⟨consistent, fun _ _ => leaves_refl, reader, reading, ?_, ?_, ?_⟩
    · exact reading.delivered _ isUnacked
    · exact consistent.retained found (List.mem_of_find?_eq_some isFound)
    · exact fun alive => reading.unacked alive _ isUnacked
  · obtain ⟨found, isFound, same⟩ := Option.map_eq_some_iff.mp fetched
    obtain ⟨rfl, rfl⟩ := Prod.mk.inj same
    have member := List.mem_of_find?_eq_some isFound
    have ⟨isAhead, isMatch⟩ : reader.position ≤ found.sequence ∧
        matchesPattern reader.filter found.msg.subject = true := by
      simpa using List.find?_some isFound
    have unhandled := reading.ahead alive found member isMatch isAhead
    refine ⟨consistent_updateReader consistent reading.found _, ?_, _, ⟨reading.named,
      Function.update_self _ _ _, reading.owner, ?_, ?_, ?_⟩, ?_, ?_, ?_⟩
    · intro other different
      exact leaves_updateReader (reading.owner ▸ different) reading.found _
    · intro sequence member
      rcases List.mem_cons.mp member with rfl | old
      · exact Nat.lt_succ_self _
      · exact (reading.delivered sequence old).trans_le (isAhead.trans (Nat.le_succ _))
    · intro _ entry member isMatch ahead
      exact reading.ahead alive entry member isMatch (isAhead.trans ((Nat.le_succ _).trans ahead))
    · intro _ sequence member
      rcases List.mem_cons.mp member with rfl | old
      · exact unhandled
      · exact reading.unacked alive sequence old
    · exact Nat.lt_succ_self _
    · exact consistent.retained found member
    · exact fun _ => unhandled

/-- An acknowledged message is held and will not be delivered again. -/
theorem Holding.ack (holding : Holding task id name reader entry shared)
    (consistent : Consistent shared) :
    Consistent (shared.ack id entry.sequence) ∧
      (∀ other, other ≠ task → Leaves other shared (shared.ack id entry.sequence)) ∧
      ∃ next, Holding task id name next entry (shared.ack id entry.sequence) ∧
        entry.sequence ∉ next.unacked := by
  unfold Shared.ack
  rw [holding.found]
  refine ⟨consistent_updateReader consistent holding.found _, ?_, _, ⟨⟨holding.named,
    Function.update_self _ _ _, holding.owner, ?_, holding.ahead, ?_⟩, holding.passed,
    holding.known, holding.unhandled⟩, ?_⟩
  · intro other different
    exact leaves_updateReader (holding.owner ▸ different) holding.found _
  · exact fun sequence member => holding.delivered sequence (List.mem_of_mem_filter member)
  · exact fun alive sequence member =>
      holding.unacked alive sequence (List.mem_of_mem_filter member)
  · simp

/-- A held message that will not be delivered again is handled. -/
theorem Holding.handle (holding : Holding task id name reader entry shared)
    (acked : entry.sequence ∉ reader.unacked) (alive : shared.Alive task) :
    Reading task id name reader (shared.handle task entry.sequence) := by
  have handledEq : (shared.handle task entry.sequence).handled =
      (name, entry.sequence) :: shared.handled := by
    simp [Shared.handle, holding.named]
  refine ⟨holding.named, holding.found, holding.owner, holding.delivered, ?_, ?_⟩
  · intro _ other member isMatch isAhead
    rw [handledEq, List.mem_cons, not_or]
    have passed := holding.passed
    refine ⟨fun same => ?_, holding.ahead alive other member isMatch isAhead⟩
    have sameSequence := (Prod.mk.inj same).2
    omega
  · intro _ sequence member
    rw [handledEq, List.mem_cons, not_or]
    refine ⟨fun same => acked ?_, holding.unacked alive sequence member⟩
    rw [← (Prod.mk.inj same).2]
    exact member

theorem handle_spec (consistent : Consistent shared) (alive : shared.Alive task)
    {sequence : Nat} (known : sequence ≤ shared.lastSequence)
    (unhandled : ∀ name ∈ shared.tasks[task]?, (name, sequence) ∉ shared.handled) :
    Consistent (shared.handle task sequence) ∧
      ∀ other, other ≠ task → Leaves other shared (shared.handle task sequence) := by
  obtain ⟨name, named, isTask⟩ := alive
  have handledEq : (shared.handle task sequence).handled = (name, sequence) :: shared.handled := by
    simp [Shared.handle, show shared.tasks[task]? = some name from named]
  refine ⟨⟨?_, ?_, consistent.retained, consistent.named, consistent.unused⟩, ?_⟩
  · rw [handledEq]
    exact List.nodup_cons.mpr ⟨unhandled name named, consistent.once⟩
  · intro other otherSequence member
    rw [handledEq] at member
    rcases List.mem_cons.mp member with same | old
    · rw [(Prod.mk.inj same).2]
      exact known
    · exact consistent.known other otherSequence old
  · intro other different
    refine ⟨fun _ => id, fun _ _ => id, fun _ _ found _ => found, ?_, ?_, fun _ => .inl, le_rfl⟩
    · intro otherName otherNamed otherAlive otherSequence member
      rw [handledEq] at member
      rcases List.mem_cons.mp member with same | old
      · have sameName : otherName = name := congrArg Prod.fst same
        exact absurd sameName
          (ne_of_alive different ⟨name, named, isTask⟩ otherAlive named otherNamed)
      · exact old
    · intro message member
      rw [handledEq]
      exact List.mem_cons_of_mem _ member

/-! ### The agreement -/

/-- Which process may make a call in which state. -/
def Allowed (shared : Shared) : Pid → PyCall → Prop
  | .process, .startProcess => True
  | .process, .reconcileConsumers => True
  | .process, .stop => True
  | .outside, .publish _ => True
  | .outside, .expire _ => True
  | .task index, .awaitTask task => task = index
  | .task index, .pullSubscribe task _ => task = index
  | .task index, .fetch task id => task = index ∧ ∃ name reader, Reading task id name reader shared
  | .task index, .ack task id sequence => task = index ∧
      ∃ name reader entry, Holding task id name reader entry shared ∧ entry.sequence = sequence
  | .task index, .loadModule task => task = index
  | .task index, .handle task entry => task = index ∧
      ∃ id name reader, Holding task id name reader entry shared
  | .task index, .publishOut task _ => task = index
  | _, _ => False

/-- Tasks rely on each other, and on refreshes, as `Leaves` says. -/
def agreement : Agreement Pid PyCall Shared where
  invariant := Consistent
  rely
    | .task index, before, after => Leaves index before after
    | _, _, _ => True
  allowed pid call shared := Allowed shared pid call
  assumed _ call shared := FindsUnhandled shared call
  rely_refl pid shared := by
    cases pid with
    | task index => exact leaves_refl
    | _ => trivial
  rely_trans pid first second third early late := by
    cases pid with
    | task index => exact early.trans late
    | _ => trivial

theorem agreement_rely {pid : Pid} (leaves : ∀ task, pid = .task task → Leaves task shared later) :
    agreement.rely pid shared later := by
  cases pid with
  | task index => exact leaves index rfl
  | _ => trivial

/-- A step that keeps the state consistent, and what the other tasks rely on. -/
theorem kept_of_leaves {pid : Pid} {after : Shared} (consistent : Consistent after)
    (leaves : ∀ task, pid ≠ .task task → Leaves task shared after) :
    Consistent after ∧ ∀ other, other ≠ pid → agreement.rely other shared after := by
  refine ⟨consistent, fun other different => agreement_rely fun task isTask => ?_⟩
  refine leaves task fun same => different ?_
  rw [isTask, same]

theorem kept_of_others {after : Shared} (consistent : Consistent after)
    (leaves : ∀ other, other ≠ task → Leaves other shared after) :
    Consistent after ∧ ∀ other, other ≠ .task task → agreement.rely other shared after :=
  kept_of_leaves consistent fun other different => leaves other fun same => different (same ▸ rfl)

theorem kept_of_same {pid : Pid} (consistent : Consistent shared) :
    Consistent shared ∧ ∀ other, other ≠ pid → agreement.rely other shared shared :=
  kept_of_leaves consistent fun _ _ => leaves_refl

theorem agreement_kept : agreement.Kept (PyCall.execute project) := by
  intro pid call circumstance response before after consistent isAllowed isAssumed executed
  cases pid with
  | process =>
      cases call with
      | startProcess =>
          rcases answered_cases executed with ⟨-, rfl⟩ | ⟨-, rfl⟩
          · exact kept_of_same consistent
          · exact kept_of_leaves consistent.addStream fun _ _ => leaves_addStream
      | reconcileConsumers =>
          obtain ⟨-, rfl⟩ := Prod.mk.inj (Option.some.inj executed)
          have ⟨holds, leaves⟩ := reconcileConsumers_spec consistent circumstance.functions
          exact kept_of_leaves holds fun task _ => leaves task
      | stop =>
          obtain ⟨-, rfl⟩ := Prod.mk.inj (Option.some.inj executed)
          exact kept_of_leaves consistent.stop fun _ _ => leaves_stop
      | _ => exact isAllowed.elim
  | outside =>
      cases call with
      | publish msg =>
          obtain ⟨-, rfl⟩ := Prod.mk.inj (Option.some.inj executed)
          have ⟨holds, leaves⟩ := publish_spec consistent project msg
          exact kept_of_leaves holds fun task _ => leaves task
      | expire sequence =>
          obtain ⟨-, rfl⟩ := Prod.mk.inj (Option.some.inj executed)
          exact kept_of_leaves (consistent.expire sequence) fun _ _ => leaves_expire sequence
      | _ => exact isAllowed.elim
  | task index =>
      cases call with
      | awaitTask task =>
          obtain ⟨-, answered⟩ := whileAlive_eq_some.mp executed
          obtain ⟨name, -, same⟩ := Option.map_eq_some_iff.mp answered
          obtain ⟨-, rfl⟩ := Prod.mk.inj same
          exact kept_of_same consistent
      | pullSubscribe task filter =>
          obtain rfl : task = index := isAllowed
          obtain ⟨-, answered⟩ := whileAlive_eq_some.mp executed
          split at answered
          · obtain ⟨-, rfl⟩ := Prod.mk.inj (Option.some.inj answered)
            exact kept_of_same consistent
          · obtain ⟨-, rfl⟩ := Prod.mk.inj (Option.some.inj answered)
            have ⟨holds, leaves⟩ := pullSubscribe_spec consistent task filter
            exact kept_of_others holds leaves
      | fetch task id =>
          obtain ⟨rfl, name, reader, reading⟩ := isAllowed
          obtain ⟨alive, answered⟩ := whileAlive_eq_some.mp executed
          split at answered
          · obtain ⟨-, rfl⟩ := Prod.mk.inj (Option.some.inj answered)
            exact kept_of_same consistent
          · obtain ⟨⟨entry, next⟩, fetched, same⟩ := Option.map_eq_some_iff.mp answered
            obtain ⟨-, rfl⟩ := Prod.mk.inj same
            have ⟨holds, leaves, _⟩ := reading.fetch consistent alive fetched
            exact kept_of_others holds leaves
      | ack task id sequence =>
          obtain ⟨rfl, name, reader, entry, holding, rfl⟩ := isAllowed
          obtain ⟨-, answered⟩ := whileAlive_eq_some.mp executed
          have ⟨holds, leaves, _⟩ := holding.ack consistent
          rcases answered_cases answered with ⟨-, rfl⟩ | ⟨-, rfl⟩
          · exact kept_of_same consistent
          · exact kept_of_others holds leaves
      | loadModule task =>
          obtain ⟨-, answered⟩ := whileAlive_eq_some.mp executed
          obtain ⟨-, rfl⟩ := Prod.mk.inj (Option.some.inj answered)
          exact kept_of_same consistent
      | handle task entry =>
          obtain ⟨rfl, id, name, reader, holding⟩ := isAllowed
          obtain ⟨alive, answered⟩ := whileAlive_eq_some.mp executed
          obtain ⟨-, rfl⟩ := Prod.mk.inj (Option.some.inj answered)
          have unhandled : ∀ other ∈ before.tasks[task]?,
              (other, entry.sequence) ∉ before.handled := by
            intro other named
            obtain rfl : name = other := Option.some.inj (holding.named.symm.trans named)
            exact holding.unhandled alive
          have ⟨holds, leaves⟩ := handle_spec consistent alive holding.known unhandled
          exact kept_of_others holds leaves
      | publishOut task out =>
          obtain ⟨-, answered⟩ := whileAlive_eq_some.mp executed
          have ⟨holds, leaves⟩ := publish_spec consistent project out
          rcases answered_cases answered with ⟨-, rfl⟩ | ⟨-, rfl⟩
          · exact kept_of_same consistent
          · exact kept_of_leaves holds fun other _ => leaves other
      | _ => exact isAllowed.elim

/-! ### The programs keep the agreement -/

theorem publishOuts_secures (subject : String) (outs : List Bytes)
    (reading : Reading task id name reader shared) :
    agreement.Secures (PyCall.execute project) (.task task)
      (fun _ after => Reading task id name reader after) (publishOuts task subject outs) shared := by
  induction outs generalizing shared with
  | nil => exact fun later leaves _ => reading.leaves leaves
  | cons out outs ih =>
      intro before leaves consistent
      apply And.intro rfl
      intro _ circumstance response after executed
      have reading := reading.leaves leaves
      obtain ⟨-, answered⟩ := whileAlive_eq_some.mp executed
      rcases answered_cases answered with ⟨rfl, rfl⟩ | ⟨rfl, rfl⟩
      · exact fun later leaves _ => reading.leaves leaves
      · exact ih (reading.leaves ((publish_spec consistent project ⟨subject, out⟩).2 task))

theorem invokeModule_secures (holding : Holding task id name reader entry shared)
    (acked : entry.sequence ∉ reader.unacked) :
    agreement.Secures (PyCall.execute project) (.task task)
      (fun _ after => Reading task id name reader after) (invokeModule project name task entry)
      shared := by
  intro before leaves consistent
  have holding := holding.leaves leaves
  apply And.intro rfl
  intro _ circumstance loaded after executed
  obtain ⟨-, answered⟩ := whileAlive_eq_some.mp executed
  obtain ⟨-, rfl⟩ := Prod.mk.inj (Option.some.inj answered)
  cases loaded with
  | false => exact fun later leaves _ => holding.toReading.leaves leaves
  | true =>
      intro before leaves consistent
      have holding := holding.leaves leaves
      refine ⟨⟨rfl, id, name, reader, holding⟩, fun _ circumstance outs after executed => ?_⟩
      obtain ⟨alive, answered⟩ := whileAlive_eq_some.mp executed
      obtain ⟨-, rfl⟩ := Prod.mk.inj (Option.some.inj answered)
      exact publishOuts_secures _ outs (holding.handle acked alive)

theorem consumeMessages_secures (rounds : Nat) (reading : Reading task id name reader shared) :
    agreement.Secures (PyCall.execute project) (.task task) (fun _ _ => True)
      (consumeMessages project name task id rounds) shared := by
  induction rounds generalizing reader shared with
  | zero => exact fun _ _ _ => trivial
  | succ rounds ih =>
      intro before leaves consistent
      have reading := reading.leaves leaves
      refine ⟨⟨rfl, name, reader, reading⟩, fun _ circumstance fetched after executed => ?_⟩
      obtain ⟨alive, answered⟩ := whileAlive_eq_some.mp executed
      split at answered
      · obtain ⟨rfl, rfl⟩ := Prod.mk.inj (Option.some.inj answered)
        exact fun _ _ _ => trivial
      · obtain ⟨⟨entry, next⟩, isFetched, same⟩ := Option.map_eq_some_iff.mp answered
        obtain ⟨rfl, rfl⟩ := Prod.mk.inj same
        obtain ⟨-, -, reader, holding⟩ := reading.fetch consistent alive isFetched
        intro before leaves consistent
        have holding := holding.leaves leaves
        refine ⟨⟨rfl, name, reader, entry, holding, rfl⟩, fun _ circumstance acked after executed => ?_⟩
        obtain ⟨-, answered⟩ := whileAlive_eq_some.mp executed
        rcases answered_cases answered with ⟨rfl, rfl⟩ | ⟨rfl, rfl⟩
        · exact fun _ _ _ => trivial
        · obtain ⟨-, -, reader, holding, acked⟩ := holding.ack consistent
          exact ((invokeModule_secures holding acked).imp fun _ _ reading => ih reading).bind

theorem consumeFunction_secures (rounds task : Nat) :
    agreement.Secures (PyCall.execute project) (.task task) (fun _ _ => True)
      (consumeFunction project rounds task) shared := by
  intro before _ _
  apply And.intro rfl
  intro _ circumstance name after executed
  obtain ⟨-, answered⟩ := whileAlive_eq_some.mp executed
  obtain ⟨name, named, same⟩ := Option.map_eq_some_iff.mp answered
  obtain ⟨rfl, rfl⟩ := Prod.mk.inj same
  intro before leaves consistent
  apply And.intro rfl
  intro findsUnhandled circumstance subscribed after executed
  obtain ⟨-, answered⟩ := whileAlive_eq_some.mp executed
  split at answered
  · obtain ⟨rfl, rfl⟩ := Prod.mk.inj (Option.some.inj answered)
    exact fun _ _ _ => trivial
  · obtain ⟨rfl, rfl⟩ := Prod.mk.inj (Option.some.inj answered)
    exact consumeMessages_secures rounds
      (reading_pullSubscribe (leaves.tasks name named) findsUnhandled)

/-- Programs whose calls are always allowed. -/
theorem secures_of_makes {Result : Type} {pid : Pid} {program : PyProgram Result}
    (makes : program.Makes fun call => ∀ shared, Allowed shared pid call) :
    agreement.Secures (PyCall.execute project) pid (fun _ _ => True) program shared := by
  induction program generalizing shared with
  | done result => exact fun _ _ _ => trivial
  | call request next ih =>
      exact fun before _ _ => ⟨makes.1 before, fun _ _ response _ _ => ih response (makes.2 response)⟩

theorem restarts_makes (hooks : List Nat) :
    (restarts hooks).Makes fun call => ∀ shared, Allowed shared .process call := by
  have refreshing : ∀ rounds,
      (refreshes rounds).Makes fun call => ∀ shared, Allowed shared .process call := by
    intro rounds
    induction rounds with
    | zero => trivial
    | succ rounds ih => exact ⟨fun _ => trivial, fun _ => ih⟩
  induction hooks with
  | nil => trivial
  | cons hooks later ih =>
      refine Program.Makes.bind ⟨fun _ => trivial, fun started => ?_⟩ fun _ => ih
      cases started with
      | false => trivial
      | true => exact (refreshing (hooks + 1)).bind fun _ => ⟨fun _ => trivial, fun _ => trivial⟩

theorem others_makes (changes : List Change) :
    (others changes).Makes fun call => ∀ shared, Allowed shared .outside call := by
  induction changes with
  | nil => trivial
  | cons change later ih =>
      cases change with
      | published msg => exact ⟨fun _ => trivial, fun _ => ih⟩
      | expired sequence => exact ⟨fun _ => trivial, fun _ => ih⟩

/-! ### Runs -/

theorem consistent_start (hooks : List Nat) (changes : List Change) (rounds : Nat → Nat) :
    Consistent (start project hooks changes rounds).shared where
  once := List.nodup_nil
  known := nofun
  retained := nofun
  named := nofun
  unused _ _ := rfl

/-- Two processes of the Python runtime, and two messages for a function. -/
def restarted : Runtime :=
  start "shop" [0, 0] [.published ⟨"shop.f.exec.py.r1", []⟩, .published ⟨"shop.f.exec.py.r2", []⟩]
    fun _ => 2

/-- A process is started and finds the function `f`. -/
def startSteps : List (Pid × PyCall.Circumstance) :=
  [(.process, {}), (.process, { functions := ["f"] })]

/-- Some steps of a task that succeed. -/
def taskSteps (task count : Nat) : List (Pid × PyCall.Circumstance) :=
  List.replicate count (.task task, {})

/-- A message is handled, the process ends, and the next one handles it again. -/
def handlesAgain : List (Pid × PyCall.Circumstance) :=
  startSteps ++ (.outside, {}) :: taskSteps 0 6 ++ (.process, {}) :: startSteps ++ taskSteps 1 6

/-- One process handles both messages. -/
def handlesBoth : List (Pid × PyCall.Circumstance) :=
  startSteps ++ (.outside, {}) :: (.outside, {}) :: taskSteps 0 10

end PythonRuntime

end Litefunctions
