import Litefunctions.OperatorRuns

/-!
# Functions under stale reads

Some readers of the operator go through a cache, so a read may return any
version that an object once had.  Writes go to the API server, which accepts an
update only when it names the stored version.  Hence every accepted update
changes exactly the object that its process read, however old the copies of the
other processes are: an inactive function becomes active only by an activation,
and nothing changes what a function is.
-/

namespace Litefunctions

open Program

/-- The cluster with the states in which reads may still see it. -/
structure ClusterHistory where
  current : Cluster
  earlier : List Cluster
  evolves : ∀ past ∈ earlier, Store.Evolves past.functions current.functions

namespace ClusterHistory

/-- The states that reads may see, the current one first. -/
def versions (history : ClusterHistory) : List Cluster :=
  history.current :: history.earlier

/-- The state that a read sees; what is not recorded is the current state. -/
def seen (history : ClusterHistory) (index : Nat) : Cluster :=
  history.versions[index]?.getD history.current

theorem seen_mem (history : ClusterHistory) (index : Nat) :
    history.seen index ∈ history.versions := by
  unfold seen
  cases found : history.versions[index]? with
  | none => exact List.mem_cons_self
  | some past => exact List.mem_of_getElem? found

theorem seen_evolves (history : ClusterHistory) (index : Nat) :
    Store.Evolves (history.seen index).functions history.current.functions := by
  rcases List.mem_cons.mp (history.seen_mem index) with isCurrent | member
  · rw [isCurrent]
    exact .refl _
  · exact history.evolves _ member

end ClusterHistory

/-- What the environment decides at a call: besides the circumstance, the state
that a read of one object sees, and for a list the objects that it returns, each
as of some state. -/
structure StaleCircumstance extends ApiCall.Circumstance where
  version : Nat
  listed : List (NamespacedName × Nat)

namespace ApiCall

/-- The response to a read; `none` for the other calls. -/
def readStale (circumstance : StaleCircumstance) (history : ClusterHistory) :
    (call : ApiCall) → Option call.Response
  | functions (.get key) =>
      some (answer circumstance.unavailable circumstance.elapsed (functions (.get key))
        (history.seen circumstance.version)).1
  | functions .list =>
      some (if circumstance.unavailable then
          .error .unavailable
        else
          .ok (circumstance.listed.filterMap fun object =>
            (history.seen object.2).functions.find? object.1))
  | deployments (.get key) =>
      some (answer circumstance.unavailable circumstance.elapsed (deployments (.get key))
        (history.seen circumstance.version)).1
  | services (.get key) =>
      some (answer circumstance.unavailable circumstance.elapsed (services (.get key))
        (history.seen circumstance.version)).1
  | _ => none

end ApiCall

namespace Operator

theorem answer_evolves (unavailable : Bool) (elapsed : Nat) (call : ApiCall) (cluster : Cluster) :
    Store.Evolves cluster.functions (call.answer unavailable elapsed cluster).2.functions :=
  functions_evolve call ⟨unavailable, elapsed⟩ rfl

end Operator

namespace ApiCall

/-- Reads see any recorded state; every other call is answered in the current
state, which is recorded. -/
def executeStale (call : ApiCall) (circumstance : StaleCircumstance) (history : ClusterHistory) :
    Option (call.Response × ClusterHistory) :=
  match call.readStale circumstance history with
  | some response => some (response, history)
  | none =>
      let answered := call.answer circumstance.unavailable circumstance.elapsed history.current
      some (answered.1,
        { current := answered.2
          earlier := history.versions
          evolves := by
            have evolves := Operator.answer_evolves circumstance.unavailable
              circumstance.elapsed call history.current
            intro past member
            rcases List.mem_cons.mp member with rfl | member
            · exact evolves
            · exact (history.evolves past member).trans evolves })

end ApiCall

namespace Operator

/-! ### Jobs -/

/-- What runs against the cluster. -/
inductive Job where
  | runTask (task : Task)
  | markInactive (namespace_ name : String)

inductive JobOutcome where
  | ofTask (outcome : Outcome)
  | markedInactive (result : Except CallError Unit)

namespace Job

def program : Job → ApiProgram JobOutcome
  | runTask task => do return .ofTask (← task.program)
  | markInactive namespace_ name => do
      return .markedInactive (← markFunctionInactive namespace_ name)

/-- The jobs that call `MarkFunctionActive`. -/
def activates : Job → Bool
  | runTask task => task.activates
  | markInactive _ _ => false

end Job

/-- Two functions that differ at most in their activity and their lease. -/
def SameIdentity (old new : FunctionSpec) : Prop :=
  new.language = old.language ∧ new.project = old.project ∧ new.name = old.name ∧
    new.method = old.method ∧ new.isAsync = old.isAsync ∧ new.gitCreds = old.gitCreds

/-- A job writes back an object that it read, with the same identity and no
more active unless it activates; patches never activate. -/
def WritesBack (activates : Bool) (history : ApiHistory) : ApiCall → Prop
  | .functions (.update object) =>
      ∃ key read, ⟨.functions (.get key), Except.ok read⟩ ∈ history ∧
        object.key = read.key ∧ object.version = read.version ∧
        SameIdentity read.content object.content ∧
        (object.content.isActive = true → activates = true ∨ read.content.isActive = true)
  | .functions (.patch _ patch) => patch.isActive ≠ some true
  | .functions (.delete _) => False
  | _ => True

theorem Writes.writesBack {activates deactivates : Bool} {history : ApiHistory} {call : ApiCall}
    (writes : Writes activates deactivates history call) : WritesBack activates history call := by
  cases call with
  | functions call =>
      cases call with
      | update object =>
          obtain ⟨key, read, time, member, rfl⟩ := writes
          refine ⟨key, read, member, ?_⟩
          cases activates with
          | true => exact ⟨rfl, rfl, ⟨rfl, rfl, rfl, rfl, rfl, rfl⟩, fun _ => .inl rfl⟩
          | false => exact ⟨rfl, rfl, ⟨rfl, rfl, rfl, rfl, rfl, rfl⟩, .inr⟩
      | patch key patch => exact writes.2
      | delete key => exact writes
      | _ => trivial
  | _ => trivial

theorem markFunctionInactive_writesBack (namespace_ name : String) (history : ApiHistory) :
    (markFunctionInactive namespace_ name).Along (WritesBack false) (fun _ _ => True) history := by
  unfold markFunctionInactive
  simp only [along_bind]
  have reads := getFunction_along (@allowsTask_writes false false) namespace_ name history
  refine reads.imp (fun _ _ => Writes.writesBack) ?_
  rintro after (err | function) read
  · trivial
  · simp only
    split
    · trivial
    · refine ⟨?_, fun response => ?_⟩
      · exact ⟨⟨namespace_, name⟩, function, read function rfl, rfl, rfl,
          ⟨rfl, rfl, rfl, rfl, rfl, rfl⟩, by simp [Function.setActive]⟩
      · cases response <;> trivial

theorem Job.program_writesBack (job : Job) :
    job.program.Along (WritesBack job.activates) (fun _ _ => True) [] := by
  cases job with
  | runTask task =>
      exact along_bind.mpr (task.program_writes.imp (fun _ _ => Writes.writesBack)
        fun _ _ _ => trivial)
  | markInactive namespace_ name =>
      exact along_bind.mpr ((markFunctionInactive_writesBack namespace_ name []).imp
        (fun _ _ => id) fun _ _ _ => trivial)

/-! ### What one call changes -/

section Steps

variable {activates : Bool} {before after : Store NamespacedName FunctionSpec}

theorem SameIdentity.refl (spec : FunctionSpec) : SameIdentity spec spec :=
  ⟨rfl, rfl, rfl, rfl, rfl, rfl⟩

/-- Functions stay, keep their identity, and become active only where
`mayActivate`. -/
def Keeps (mayActivate : Prop) (before after : Store NamespacedName FunctionSpec) : Prop :=
  ∀ key old, before.find? key = some old →
    ∃ new, after.find? key = some new ∧ SameIdentity old.content new.content ∧
      (old.content.isActive = false → new.content.isActive = true → mayActivate)

theorem Keeps.refl (mayActivate : Prop) (store : Store NamespacedName FunctionSpec) :
    Keeps mayActivate store store := by
  intro key old found
  refine ⟨old, found, .refl _, fun inactive active => ?_⟩
  exact absurd (inactive.symm.trans active) Bool.false_ne_true

/-- A call that stores one object keeps the functions if it keeps the one that
it replaces. -/
theorem Keeps.of_stores {mayActivate : Prop} {key : NamespacedName} {written : Function}
    (stores : ∀ other, after.find? other = if other = key then some written else before.find? other)
    (replaced : ∀ old, before.find? key = some old → SameIdentity old.content written.content ∧
      (old.content.isActive = false → written.content.isActive = true → mayActivate)) :
    Keeps mayActivate before after := by
  intro other old found
  by_cases sameKey : other = key
  · subst sameKey
    exact ⟨written, by rw [stores, if_pos rfl], replaced old found⟩
  · obtain ⟨new, newFound, kept⟩ := Keeps.refl mayActivate before other old found
    exact ⟨new, by rw [stores, if_neg sameKey, newFound], kept⟩

/-- An accepted write of a job whose reads are versions of the stored objects. -/
theorem keeps_of_execute {history : ApiHistory} {call : FunctionCall} {value : call.Value}
    (answered : call.execute FunctionPatch.apply before = (.ok value, after))
    (writes : WritesBack activates history (.functions call))
    (storedRead : ∀ {key : NamespacedName} {read stored : Function},
      ⟨.functions (.get key), Except.ok read⟩ ∈ history → before.find? read.key = some stored →
      stored.version = read.version → stored = read) :
    Keeps (activates = true ∧ ∃ object, call = .update object) before after := by
  cases call with
  | get key => exact (StoreCall.execute_get_eq_ok answered).2 ▸ .refl _ _
  | list => exact (StoreCall.execute_list_eq_ok answered).2 ▸ .refl _ _
  | create key spec =>
      obtain ⟨absent, -, stores⟩ := Store.create_eq_ok answered
      refine .of_stores stores fun old found => ?_
      exact absurd (absent.symm.trans found) (by simp)
  | update object =>
      obtain ⟨stored, found, sameVersion, contentEq, stores⟩ := Store.update_eq_ok answered
      obtain ⟨key, read, member, keyEq, versionEq, identity, activity⟩ := writes
      obtain rfl : stored = read :=
        storedRead member (keyEq ▸ found) (sameVersion.trans versionEq)
      refine .of_stores stores fun old oldFound => ?_
      obtain rfl := Option.some.inj (found.symm.trans oldFound)
      rw [contentEq]
      refine ⟨identity, fun inactive active => ⟨?_, object, rfl⟩⟩
      rcases activity active with isActivation | wasActive
      · exact isActivation
      · exact absurd (inactive.symm.trans wasActive) Bool.false_ne_true
  | patch key patch =>
      obtain ⟨stored, found, contentEq, -, stores⟩ := Store.patch_eq_ok answered
      refine .of_stores stores fun old oldFound => ?_
      obtain rfl := Option.some.inj (found.symm.trans oldFound)
      rw [contentEq]
      refine ⟨⟨rfl, rfl, rfl, rfl, rfl, rfl⟩, fun inactive active => ?_⟩
      rcases patch with ⟨_ | _ | _⟩
      · exact absurd (inactive.symm.trans active) Bool.false_ne_true
      · exact absurd active Bool.false_ne_true
      · exact absurd rfl writes
  | delete key => exact absurd writes id

end Steps

/-! ### Runs -/

section Runs

variable {Pid : Type} [DecidableEq Pid]

abbrev StaleEvent (Pid : Type) := Event Pid ApiCall ApiCall.Response ClusterHistory

/-- The jobs before their first calls. -/
def startStale (history : ClusterHistory) (jobs : Pid → Job) :
    Processes Pid ApiCall ApiCall.Response JobOutcome ClusterHistory where
  shared := history
  program pid := (jobs pid).program

/-- The events of the jobs under a schedule. -/
def staleEventsOf (history : ClusterHistory) (jobs : Pid → Job)
    (schedule : List (Pid × StaleCircumstance)) : List (StaleEvent Pid) :=
  ((startStale history jobs).run ApiCall.executeStale schedule).1

variable {call : ApiCall} {response : call.Response} {circumstance : StaleCircumstance}
variable {before after : ClusterHistory}

/-- A call is a read of a recorded state, or it is answered in the current one. -/
theorem executeStale_cases
    (executed : call.executeStale circumstance before = some (response, after)) :
    (call.readStale circumstance before = some response ∧ after = before) ∨
      (call.readStale circumstance before = none ∧
        call.execute circumstance.toCircumstance before.current =
          some (response, after.current)) := by
  unfold ApiCall.executeStale at executed
  split at executed
  · next found =>
      obtain ⟨rfl, rfl⟩ := Prod.mk.inj (Option.some.inj executed)
      exact .inl ⟨found, rfl⟩
  · next notRead =>
      obtain ⟨rfl, rfl⟩ := Prod.mk.inj (Option.some.inj executed)
      exact .inr ⟨notRead, rfl⟩

/-- What a read of a function returns was stored in the state that it sees. -/
theorem found_of_readStale {key : NamespacedName} {read : Function}
    (found : (ApiCall.functions (.get key)).readStale circumstance before = some (.ok read)) :
    (before.seen circumstance.version).functions.find? key = some read := by
  have answered := Option.some.inj found
  simp only [ApiCall.answer] at answered
  split at answered
  · cases answered
  · exact (StoreCall.execute_get_eq_ok (Prod.ext answered rfl)).1

theorem executeStale_evolves
    (executed : call.executeStale circumstance before = some (response, after)) :
    Store.Evolves before.current.functions after.current.functions := by
  rcases executeStale_cases executed with ⟨-, rfl⟩ | ⟨-, answered⟩
  · exact .refl _
  · exact functions_evolve _ _ answered

variable {history : ClusterHistory} {jobs : Pid → Job}
variable {last : Processes Pid ApiCall ApiCall.Response JobOutcome ClusterHistory}
variable {early late : List (StaleEvent Pid)} {event : StaleEvent Pid}

/-- However old a copy is, what is stored with its version is the copy. -/
theorem stored_eq_staleRead
    (ran : Processes.Ran ApiCall.executeStale (startStale history jobs) (early ++ event :: late) last)
    {key : NamespacedName} {read stored : Function}
    (member : ⟨.functions (.get key), Except.ok read⟩ ∈ Event.own event.pid early)
    (found : event.before.current.functions.find? read.key = some stored)
    (sameVersion : stored.version = read.version) : stored = read := by
  obtain ⟨middle, ranEarly, -⟩ := Processes.ran_append.mp ran
  obtain ⟨reading, readingMember, -, -, circumstance, executed⟩ :=
    ranEarly.executed_of_mem_own member
  obtain ⟨past, readFound, pastEvolves⟩ : ∃ past : Store NamespacedName FunctionSpec,
      past.find? key = some read ∧ Store.Evolves past reading.before.current.functions := by
    rcases executeStale_cases executed with ⟨wasRead, -⟩ | ⟨notRead, -⟩
    · exact ⟨_, found_of_readStale wasRead, reading.before.seen_evolves _⟩
    · cases notRead
  have evolves : Store.Evolves reading.before.current.functions event.before.current.functions :=
    ran.linked.relates_of_mem
      (fun first second => Store.Evolves first.current.functions second.current.functions)
      (fun _ => .refl _) .trans
      (fun _ member => executeStale_evolves (ran.executed member).choose_spec) readingMember
  rw [Store.key_of_find?_eq_some readFound] at found
  exact (pastEvolves.trans evolves).eq_of_version_eq readFound found sameVersion

/-- One event of a run under stale reads. -/
theorem keeps_of_ran
    (ran : Processes.Ran ApiCall.executeStale (startStale history jobs)
      (early ++ event :: late) last) :
    Keeps ((jobs event.pid).activates = true ∧ ∃ object, event.request = .functions (.update object))
      event.before.current.functions event.after.current.functions := by
  obtain ⟨circumstance, executed⟩ := ran.executed List.mem_append_cons_self
  have writes := ran.assertion (jobs event.pid).program_writesBack
  have storedRead := @stored_eq_staleRead _ _ _ _ _ _ _ _ ran
  obtain ⟨pid, request, response, before, after⟩ := event
  rcases executeStale_cases executed with ⟨-, afterEq⟩ | ⟨-, answered⟩
  · rw [afterEq]
    exact .refl _ _
  · by_cases accepted : ∃ (functionCall : FunctionCall) (value : functionCall.Value),
        (⟨request, response⟩ : Answered ApiCall ApiCall.Response) =
          ⟨.functions functionCall, Except.ok value⟩
    · obtain ⟨functionCall, value, answeredEq⟩ := accepted
      cases answeredEq
      have keeps := keeps_of_execute (execute_functions answered) writes storedRead
      intro key old found
      obtain ⟨new, newFound, identity, activity⟩ := keeps key old found
      refine ⟨new, newFound, identity, fun inactive active => ?_⟩
      obtain ⟨activates, object, callEq⟩ := activity inactive active
      exact ⟨activates, object, congrArg ApiCall.functions callEq⟩
    · rw [execute_functions_eq request circumstance.toCircumstance answered
        fun functionCall value answeredEq => accepted ⟨functionCall, value, answeredEq⟩]
      exact .refl _ _

/-- In every run under stale reads, each call keeps the identity of every
function, and an inactive one becomes active only by an update of a process that
runs `MarkFunctionActive`. -/
theorem functions_keepIdentity (history : ClusterHistory) (jobs : Pid → Job)
    (schedule : List (Pid × StaleCircumstance)) :
    Event.AtEvery (fun _ event =>
      Keeps ((jobs event.pid).activates = true ∧
          ∃ object, event.request = .functions (.update object))
        event.before.current.functions event.after.current.functions)
      (staleEventsOf history jobs schedule) := by
  intro early event late split
  have ran := @Processes.ran_run _ _ _ _ _ _ _ ApiCall.executeStale (startStale history jobs) schedule
  rw [show ((startStale history jobs).run ApiCall.executeStale schedule).1 =
    early ++ event :: late from split] at ran
  exact keeps_of_ran ran

end Runs

end Operator

end Litefunctions
