import Litefunctions.InterleavedPrograms
import Litefunctions.RuntimeConsumers

/-!
# Consumers of the Python runtime

The Python runtime reads the messages of each function from the stream of the
project, through a consumer that starts at the first retained message.  A task
acknowledges a message and then passes it to the function.  A refresh cancels
the tasks of functions that are gone and creates tasks for new ones, and a
process that stops takes its tasks with it; the stream keeps its messages.
-/

namespace Litefunctions

namespace PythonRuntime

open Subject

/-- A message that the stream retains. -/
structure Entry where
  sequence : Nat
  msg : Msg
  deriving DecidableEq

/-- A pull consumer without a durable name: where it goes on reading, and what
it has delivered that is not acknowledged.  `owner` is the task that made it. -/
structure Reader where
  owner : Nat
  filter : String
  position : Nat
  unacked : List Nat

/-- What the tasks of the runtime and the publishers share.  Tasks are
numbered in the order in which they were created; `consumerTasks` is
`CONSUMER_TASKS`, and `handled` records which messages were passed to which
function. -/
structure Shared where
  stream : Option (List Entry)
  lastSequence : Nat
  reader : Nat → Option Reader
  nextReader : Nat
  tasks : List String
  consumerTasks : String → Option Nat
  handled : List (String × Nat)

namespace Shared

/-- The retained messages. -/
def entries (shared : Shared) : List Entry :=
  shared.stream.getD []

/-- A task runs until it is cancelled or its process stops. -/
def Alive (shared : Shared) (task : Nat) : Prop :=
  ∃ name ∈ shared.tasks[task]?, shared.consumerTasks name = some task

instance (shared : Shared) (task : Nat) : Decidable (shared.Alive task) :=
  inferInstanceAs (Decidable (∃ name ∈ shared.tasks[task]?, _))

/-- `add_stream`, which keeps a stream that exists. -/
def addStream (shared : Shared) : Shared :=
  { shared with stream := some shared.entries }

/-- The stream retains what is published on its subjects. -/
def publish (project : String) (msg : Msg) (shared : Shared) : Shared :=
  match shared.stream with
  | none => shared
  | some entries =>
      if matchesPattern s!"{project}.>" msg.subject then
        { shared with
          stream := some (entries ++ [⟨shared.lastSequence + 1, msg⟩])
          lastSequence := shared.lastSequence + 1 }
      else
        shared

/-- The stream no longer retains a message. -/
def expire (sequence : Nat) (shared : Shared) : Shared :=
  { shared with stream := shared.stream.map (·.filter (·.sequence ≠ sequence)) }

/-- One turn of the second loop of `reconcile_consumers`. -/
def createTask (shared : Shared) (name : String) : Shared :=
  if (shared.consumerTasks name).isSome then
    shared
  else
    { shared with
      tasks := shared.tasks ++ [name]
      consumerTasks := Function.update shared.consumerTasks name (some shared.tasks.length) }

/-- `reconcile_consumers`, for what `list_functions` has found. -/
def reconcileConsumers (desired : List String) (shared : Shared) : Shared :=
  desired.foldl createTask
    { shared with
      consumerTasks := fun name => if name ∈ desired then shared.consumerTasks name else none }

/-- The process ends with all its tasks. -/
def stop (shared : Shared) : Shared :=
  { shared with consumerTasks := fun _ => none }

/-- `pull_subscribe` without a durable name. -/
def pullSubscribe (task : Nat) (filter : String) (shared : Shared) : Nat × Shared :=
  (shared.nextReader,
    { shared with
      reader := Function.update shared.reader shared.nextReader (some ⟨task, filter, 0, []⟩)
      nextReader := shared.nextReader + 1 })

/-- The next message that a reader can deliver. -/
def next? (reader : Reader) (shared : Shared) : Option Entry :=
  shared.entries.find? fun entry =>
    reader.position ≤ entry.sequence && matchesPattern reader.filter entry.msg.subject

/-- `fetch` of one message: the next one, or one again that was delivered and
is not acknowledged.  There is no answer while there is no message. -/
def fetch (id : Nat) (again : Bool) (shared : Shared) : Option (Entry × Shared) :=
  match shared.reader id with
  | none => none
  | some reader =>
      if again then
        (shared.entries.find? (·.sequence ∈ reader.unacked)).map fun entry => (entry, shared)
      else
        (shared.next? reader).map fun entry =>
          (entry,
            { shared with
              reader := Function.update shared.reader id
                (some
                  { reader with
                    position := entry.sequence + 1
                    unacked := entry.sequence :: reader.unacked }) })

/-- An acknowledged message is not delivered again by its reader. -/
def ack (id sequence : Nat) (shared : Shared) : Shared :=
  { shared with
    reader := Function.update shared.reader id
      ((shared.reader id).map fun reader =>
        { reader with unacked := reader.unacked.filter (· ≠ sequence) }) }

/-- The message is passed to the handle of the function of the task. -/
def handle (task sequence : Nat) (shared : Shared) : Shared :=
  { shared with handled := (shared.tasks[task]?.map (·, sequence)).toList ++ shared.handled }

end Shared

/-! ### Calls -/

inductive PyCall where
  | startProcess
  | reconcileConsumers
  | stop
  | publish (msg : Msg)
  | expire (sequence : Nat)
  | awaitTask (task : Nat)
  | pullSubscribe (task : Nat) (filter : String)
  | fetch (task id : Nat)
  | ack (task id sequence : Nat)
  | loadModule (task : Nat)
  | handle (task : Nat) (entry : Entry)
  | publishOut (task : Nat) (out : Msg)
  deriving DecidableEq

namespace PyCall

/-- Responses; `false` and `none` stand for an exception. -/
abbrev Response : PyCall → Type
  | startProcess => Bool
  | reconcileConsumers => Unit
  | stop => Unit
  | publish _ => Unit
  | expire _ => Unit
  | awaitTask _ => String
  | pullSubscribe _ _ => Option Nat
  | fetch _ _ => Option Entry
  | ack _ _ _ => Bool
  | loadModule _ => Bool
  | handle _ _ => List Bytes
  | publishOut _ _ => Bool

/-- What is open at a call: whether it fails, the functions that are found,
whether a message is delivered again, and what a function yields. -/
structure Circumstance where
  failed : Bool := false
  functions : List String := []
  again : Bool := false
  yields : List Bytes := []

/-- A call of a task that no longer runs is never answered. -/
def whileAlive {Answer : Type} (task : Nat) (shared : Shared) (answer : Option Answer) :
    Option Answer :=
  if shared.Alive task then answer else none

/-- One step; none while a call waits. -/
def execute (project : String) :
    (call : PyCall) → Circumstance → Shared → Option (call.Response × Shared)
  | startProcess, circumstance, shared =>
      some (if circumstance.failed then (false, shared) else (true, shared.addStream))
  | reconcileConsumers, circumstance, shared =>
      some ((), shared.reconcileConsumers circumstance.functions)
  | stop, _, shared => some ((), shared.stop)
  | publish msg, _, shared => some ((), shared.publish project msg)
  | expire sequence, _, shared => some ((), shared.expire sequence)
  | awaitTask task, _, shared =>
      whileAlive task shared (shared.tasks[task]?.map fun name => (name, shared))
  | pullSubscribe task filter, circumstance, shared =>
      whileAlive task shared
        (if circumstance.failed ∨ shared.stream = none then
          some (none, shared)
        else
          let subscribed := shared.pullSubscribe task filter
          some (some subscribed.1, subscribed.2))
  | fetch task id, circumstance, shared =>
      whileAlive task shared
        (if circumstance.failed then
          some (none, shared)
        else
          (shared.fetch id circumstance.again).map fun (entry, after) => (some entry, after))
  | ack task id sequence, circumstance, shared =>
      whileAlive task shared
        (some (if circumstance.failed then (false, shared) else (true, shared.ack id sequence)))
  | loadModule task, circumstance, shared =>
      whileAlive task shared (some (!circumstance.failed, shared))
  | handle task entry, circumstance, shared =>
      whileAlive task shared (some (circumstance.yields, shared.handle task entry.sequence))
  | publishOut task out, circumstance, shared =>
      whileAlive task shared
        (some (if circumstance.failed then (false, shared)
          else (true, shared.publish project out)))

end PyCall

theorem whileAlive_eq_some {task : Nat} {shared : Shared} {Answer : Type} {answer : Option Answer}
    {answered : Answer} :
    PyCall.whileAlive task shared answer = some answered ↔
      shared.Alive task ∧ answer = some answered := by
  unfold PyCall.whileAlive
  split
  · next alive => exact ⟨fun same => ⟨alive, same⟩, And.right⟩
  · next ended => exact ⟨nofun, fun both => absurd both.1 ended⟩

/-- A call that can fail does nothing when it does. -/
theorem answered_cases {failed response : Bool} {shared later after : Shared}
    (answered : some (if failed = true then (false, shared) else (true, later)) =
      some (response, after)) :
    (response = false ∧ after = shared) ∨ (response = true ∧ after = later) := by
  cases failed with
  | true => exact .inl (Prod.mk.inj (Option.some.inj answered.symm))
  | false => exact .inr (Prod.mk.inj (Option.some.inj answered.symm))

/-! ### Programs -/

abbrev PyProgram (Result : Type) : Type := Program PyCall PyCall.Response Result

namespace PyProgram

open Program

abbrev startProcess : PyProgram Bool :=
  perform PyCall.startProcess

abbrev reconcileConsumers : PyProgram Unit :=
  perform PyCall.reconcileConsumers

abbrev stop : PyProgram Unit :=
  perform PyCall.stop

abbrev publish (msg : Msg) : PyProgram Unit :=
  perform (PyCall.publish msg)

abbrev expire (sequence : Nat) : PyProgram Unit :=
  perform (PyCall.expire sequence)

abbrev awaitTask (task : Nat) : PyProgram String :=
  perform (PyCall.awaitTask task)

abbrev pullSubscribe (task : Nat) (filter : String) : PyProgram (Option Nat) :=
  perform (PyCall.pullSubscribe task filter)

abbrev fetch (task id : Nat) : PyProgram (Option Entry) :=
  perform (PyCall.fetch task id)

abbrev ack (task id sequence : Nat) : PyProgram Bool :=
  perform (PyCall.ack task id sequence)

abbrev loadModule (task : Nat) : PyProgram Bool :=
  perform (PyCall.loadModule task)

abbrev handle (task : Nat) (entry : Entry) : PyProgram (List Bytes) :=
  perform (PyCall.handle task entry)

abbrev publishOut (task : Nat) (out : Msg) : PyProgram Bool :=
  perform (PyCall.publishOut task out)

end PyProgram

open PyProgram

/-- Publish the outputs of a function until an exception ends it. -/
def publishOuts (task : Nat) (subject : String) : List Bytes → PyProgram Unit
  | [] => return
  | out :: outs => do
      if ← publishOut task ⟨subject, out⟩ then
        publishOuts task subject outs
      else
        return

/-- The body of `async for` in `consume_function`; exceptions are logged. -/
def invokeModule (project name : String) (task : Nat) (entry : Entry) : PyProgram Unit := do
  let reqId := Runtimes.lastToken entry.msg.subject
  if ← loadModule task then
    let outs ← handle task entry
    publishOuts task s!"{project}.{name}.res.py.{reqId}" outs
  else
    return

/-- The loop of `consume_function`, for a number of messages. -/
def consumeMessages (project name : String) (task id : Nat) : (rounds : Nat) → PyProgram Unit
  | 0 => return
  | rounds + 1 => do
      match ← fetch task id with
      | none => return
      | some entry =>
          if ← ack task id entry.sequence then
            invokeModule project name task entry
            consumeMessages project name task id rounds
          else
            return

/-- `consume_function`, as the task of this number. -/
def consumeFunction (project : String) (rounds task : Nat) : PyProgram Unit := do
  let name ← awaitTask task
  match ← pullSubscribe task s!"{project}.{name}.exec.py.*" with
  | none => return
  | some id => consumeMessages project name task id rounds

/-- The refreshes of one process. -/
def refreshes : Nat → PyProgram Unit
  | 0 => return
  | rounds + 1 => do
      reconcileConsumers
      refreshes rounds

/-- `run`, from the start of a process to its end, with one refresh at the
start and one for each hook that it receives. -/
def run (hooks : Nat) : PyProgram Unit := do
  if ← startProcess then
    refreshes (hooks + 1)
    stop
  else
    return

/-- One process after the other. -/
def restarts : List Nat → PyProgram Unit
  | [] => return
  | hooks :: later => do
      run hooks
      restarts later

/-- What others do to the stream. -/
inductive Change where
  | published (msg : Msg)
  | expired (sequence : Nat)

def others : List Change → PyProgram Unit
  | [] => return
  | .published msg :: later => do
      publish msg
      others later
  | .expired sequence :: later => do
      expire sequence
      others later

/-! ### Runs -/

inductive Pid where
  | process
  | outside
  | task (index : Nat)
  deriving DecidableEq

abbrev Runtime : Type := Processes Pid PyCall PyCall.Response Unit Shared

abbrev PyEvent : Type := Event Pid PyCall PyCall.Response Shared

/-- A project whose stream does not exist yet. -/
def start (project : String) (hooks : List Nat) (changes : List Change) (rounds : Nat → Nat) :
    Runtime where
  shared := ⟨none, 0, fun _ => none, 0, [], fun _ => none, []⟩
  program
    | .process => restarts hooks
    | .outside => others changes
    | .task index => consumeFunction project (rounds index) index

/-- No retained message of a new consumer was passed to its function before. -/
def FindsUnhandled (shared : Shared) : PyCall → Prop
  | .pullSubscribe task filter => ∀ name ∈ shared.tasks[task]?, ∀ entry ∈ shared.entries,
      matchesPattern filter entry.msg.subject = true → (name, entry.sequence) ∉ shared.handled
  | _ => True

instance (shared : Shared) : (call : PyCall) → Decidable (FindsUnhandled shared call)
  | .pullSubscribe task filter =>
      inferInstanceAs (Decidable (∀ name ∈ shared.tasks[task]?, ∀ entry ∈ shared.entries,
        matchesPattern filter entry.msg.subject = true → (name, entry.sequence) ∉ shared.handled))
  | .startProcess | .reconcileConsumers | .stop | .publish _ | .expire _ | .awaitTask _
  | .fetch _ _ | .ack _ _ _ | .loadModule _ | .handle _ _ | .publishOut _ _ => isTrue trivial

end PythonRuntime

end Litefunctions
