import Litefunctions.ActivatedFunctions
import Litefunctions.PortalRoutes

/-!
# Runs of the whole system

Requests to the portal run interleaved with the ingestor, the operator and the
runtimes.  They meet in the cluster, where the remote calls of the portal
create Function objects.  A transaction of the portal's database is kept apart
from the other requests.

Whatever the interleaving, the content of a stored Function object comes from
the object before it, from a read of it, or from a request to create it.
-/

namespace Litefunctions

/-- What the processes of the system share; a transaction belongs to a process
and has the database before it. -/
structure System (Pid : Type) where
  db : Portal.Database
  transaction : Option (Pid × Portal.Database)
  platform : Platform
  clock : Int

inductive SystemCall (Pid : Type) where
  | platform (call : PlatformCall)
  | portal (pid : Pid) (call : Portal.PortalCall)

namespace System

variable {Pid : Type}

abbrev functions (system : System Pid) : Store NamespacedName FunctionSpec :=
  system.platform.cluster.functions

/-- The world of a request to the portal. -/
def world (system : System Pid) : Portal.World where
  db := system.db
  saved := system.transaction.map (·.2)
  cluster := system.platform.cluster
  clock := system.clock

/-- The system after a call of a request to the portal. -/
def withWorld (system : System Pid) (pid : Pid) (world : Portal.World) : System Pid where
  db := world.db
  transaction := world.saved.map fun db => (pid, db)
  platform := { system.platform with cluster := world.cluster }
  clock := world.clock

/-- A transaction of another process is open. -/
def IsClosedTo [DecidableEq Pid] (system : System Pid) (pid : Pid) : Prop :=
  ∃ open_ ∈ system.transaction, open_.1 ≠ pid

instance [DecidableEq Pid] (system : System Pid) (pid : Pid) : Decidable (system.IsClosedTo pid) :=
  inferInstanceAs (Decidable (∃ open_ ∈ system.transaction, _))

end System

namespace SystemCall

variable {Pid : Type} [DecidableEq Pid]

abbrev Response : SystemCall Pid → Type
  | platform call => call.Response
  | portal _ call => call.Response

/-- What the environment decides at a call. -/
structure Circumstance where
  platform : PlatformCall.Circumstance := {}
  portal : Portal.PortalCall.Circumstance := {}

/-- The response to a call and the system after it; none while the call
waits. -/
def execute (call : SystemCall Pid) (circumstance : Circumstance) (system : System Pid) :
    Option (call.Response × System Pid) :=
  match call with
  | platform call =>
      match call.execute circumstance.platform system.platform with
      | none => none
      | some (response, after) => some (response, { system with platform := after })
  | portal pid call =>
      if system.IsClosedTo pid then
        none
      else
        let answered := call.execute circumstance.portal system.world
        some (answered.1, system.withWorld pid answered.2)

/-- The call asks for a new Function object. -/
def Creates (req : Operator.CreateFunctionRequest) : SystemCall Pid → Prop
  | platform call => call = .api (.functions (.create req.key (Operator.newSpec req)))
  | portal _ call => call = .createFunctionCRD req

end SystemCall

open Program

/-- A program of a process of the system. -/
abbrev SystemProgram (Pid : Type) :=
  Program (SystemCall Pid) SystemCall.Response

abbrev SystemHistory (Pid : Type) := List (Answered (SystemCall Pid) SystemCall.Response)

abbrev SystemEvent (Pid : Type) := Event Pid (SystemCall Pid) SystemCall.Response (System Pid)

/-- What a process of the system does. -/
inductive SystemTask (Response : Type) where
  | platform (task : PlatformTask)
  | portal (request : Portal.Request Response)

/-- What a process of the system returns. -/
inductive SystemOutcome where
  | ofPlatform (outcome : PlatformOutcome)
  | replied (replies : List Portal.Reply)

namespace SystemTask

variable {Pid Response : Type}

def program (settings : Portal.Settings) (authn : Portal.Passkeys.WebAuthn Response) (pid : Pid) :
    SystemTask Response → SystemProgram Pid SystemOutcome
  | platform task => do
      return .ofPlatform (← task.program.lift .platform fun _ response => response)
  | portal request => do
      return .replied (← (Portal.serve settings authn request).lift (.portal pid)
        fun _ response => response)

end SystemTask

variable {Pid Response : Type}

/-- The processes of the system before their first calls. -/
def startSystem (settings : Portal.Settings) (authn : Portal.Passkeys.WebAuthn Response)
    (system : System Pid) (tasks : Pid → SystemTask Response) :
    Processes Pid (SystemCall Pid) SystemCall.Response SystemOutcome (System Pid) where
  shared := system
  program pid := (tasks pid).program settings authn pid

/-- The tasks can run from the system through these events and end up as
`last`. -/
def SystemRuns [DecidableEq Pid] (settings : Portal.Settings)
    (authn : Portal.Passkeys.WebAuthn Response) (system : System Pid)
    (tasks : Pid → SystemTask Response) (events : List (SystemEvent Pid))
    (last : Processes Pid (SystemCall Pid) SystemCall.Response SystemOutcome (System Pid)) : Prop :=
  Processes.Ran SystemCall.execute (startSystem settings authn system tasks) events last

/-! ### Where the content of a Function object comes from -/

abbrev EmbedsPlatform : PlatformHistory → SystemHistory Pid → Prop :=
  Embeds SystemCall.platform fun _ response => response

theorem mem_of_embedsPlatform {part : PlatformHistory} {history : SystemHistory Pid}
    (embeds : EmbedsPlatform part history) {call : PlatformCall} {response : call.Response}
    (member : ⟨call, response⟩ ∈ part) : ⟨.platform call, response⟩ ∈ history := by
  obtain ⟨answer, answerEq, found⟩ := embeds _ member
  exact (show answer = response from answerEq) ▸ found

/-- Calls of the platform reproduce Function objects. -/
def ReproducesIn (history : SystemHistory Pid) : SystemCall Pid → Prop
  | .platform request => ∃ part, EmbedsPlatform part history ∧ ReproducesOn part request
  | .portal _ _ => True

/-- Assertions along a process of the platform, run in the system. -/
theorem SystemTask.along_platform (settings : Portal.Settings)
    (authn : Portal.Passkeys.WebAuthn Response) (pid : Pid) {task : PlatformTask}
    {assertion : PlatformHistory → PlatformCall → Prop}
    {finished : PlatformHistory → PlatformOutcome → Prop}
    (along : task.program.Along assertion finished []) :
    ((SystemTask.platform task : SystemTask Response).program settings authn pid).Along
      (fun before request => ∃ part inner, EmbedsPlatform part before ∧
        request = .platform inner ∧ assertion part inner)
      (fun after outcome => ∃ part result, EmbedsPlatform part after ∧
        outcome = .ofPlatform result ∧ finished part result) [] := by
  have embeds : EmbedsPlatform [] ([] : SystemHistory Pid) := by
    intro answered member
    cases member
  refine along_bind.mpr ((along.lift embeds).imp (fun _ _ => id) ?_)
  rintro after result ⟨part, partEmbeds, finishes⟩
  exact ⟨part, result, partEmbeds, rfl, finishes⟩

theorem SystemTask.program_reproduces (settings : Portal.Settings)
    (authn : Portal.Passkeys.WebAuthn Response) (pid : Pid) (task : SystemTask Response) :
    (task.program settings authn pid).Along ReproducesIn (fun _ _ => True) [] := by
  cases task with
  | platform task =>
      refine (along_platform settings authn pid task.program_reproduces).imp ?_ fun _ _ _ => trivial
      rintro before request ⟨part, inner, partEmbeds, rfl, reproduces⟩
      exact ⟨part, partEmbeds, reproduces⟩
  | portal request => exact (along_lift (fun _ _ => trivial) _ fun _ _ _ => trivial).map _

/-- Where the content that is stored under a key after a call comes from: the
object before the call, an object that the process read, or a request to create
it. -/
inductive Origin (history : SystemHistory Pid) (request : SystemCall Pid)
    (before : Store NamespacedName FunctionSpec) (key : NamespacedName) (content : FunctionSpec) :
    Prop
  | kept {old : Function} (found : before.find? key = some old)
      (same : Operator.SameIdentity old.content content)
  | read {asked : NamespacedName} {old : Function}
      (member : ⟨.platform (.api (.functions (.get asked))), Except.ok old⟩ ∈ history)
      (keyEq : key = old.key) (same : Operator.SameIdentity old.content content)
  | created {req : Operator.CreateFunctionRequest} (creates : request.Creates req)
      (absent : before.find? req.key = none) (keyEq : key = req.key)
      (contentEq : content = Operator.newSpec req)

theorem Origin.of_eq {history : SystemHistory Pid} {request : SystemCall Pid}
    {before after : Store NamespacedName FunctionSpec} {key : NamespacedName} {fn : Function}
    (same : after = before) (found : after.find? key = some fn) :
    Origin history request before key fn.content :=
  .kept (same ▸ found) (.refl _)

/-- The request of a portal creates a Function object or leaves all as they are. -/
theorem Portal.PortalCall.functions_of_execute (request : Portal.PortalCall)
    (circumstance : Portal.PortalCall.Circumstance) (world : Portal.World) :
    (request.execute circumstance world).2.cluster.functions = world.cluster.functions ∨
      ∃ req, request = .createFunctionCRD req ∧ Operator.Creates req world.cluster.functions
        (request.execute circumstance world).2.cluster.functions := by
  cases request with
  | createFunctionCRD req =>
      have creates := (Operator.createFunction_ensures req world.cluster).ends circumstance.operator
      simp only [Portal.PortalCall.execute]
      cases circumstance.fault with
      | none => exact .inr ⟨req, rfl, creates⟩
      | refused => exact .inl rfl
      | lost => exact .inr ⟨req, rfl, creates⟩
  | query statement =>
      simp only [Portal.PortalCall.execute]
      cases circumstance.fault <;> exact .inl rfl
  | begin | commit =>
      simp only [Portal.PortalCall.execute]
      cases circumstance.fault <;> exact .inl rfl
  | _ => exact .inl rfl

/-- Only calls to the API server change the cluster. -/
theorem PlatformCall.cluster_of_execute {request : PlatformCall}
    {circumstance : PlatformCall.Circumstance} {before after : Platform}
    {response : request.Response} (leaves : LeavesCluster request)
    (executed : request.execute circumstance before = some (response, after)) :
    after.cluster = before.cluster := by
  cases request with
  | api call => exact leaves.elim
  | broker call =>
      simp only [PlatformCall.execute] at executed
      split at executed
      · cases executed
      · obtain ⟨-, rfl⟩ := Prod.mk.inj (Option.some.inj executed)
        rfl
  | awaitReader index | awaitWorker index | awaitDeployment key =>
      simp only [PlatformCall.execute] at executed
      obtain ⟨found, -, answerEq⟩ := Option.map_eq_some_iff.mp executed
      rw [← (Prod.mk.inj answerEq).2]
  | _ =>
      obtain ⟨-, rfl⟩ := Prod.mk.inj (Option.some.inj executed)
      rfl

/-- An accepted call to the functions that reproduces them. -/
theorem Origin.of_functions {history : SystemHistory Pid} {part : ApiHistory}
    (embeds : ∀ (call : ApiCall) (response : call.Response), ⟨call, response⟩ ∈ part →
      ⟨.platform (.api call), response⟩ ∈ history)
    {call : FunctionCall} {value : call.Value} {before after : Store NamespacedName FunctionSpec}
    (accepted : call.execute FunctionPatch.apply before = (.ok value, after))
    (reproduces : Operator.Reproduces part (.functions call)) {key : NamespacedName} {fn : Function}
    (found : after.find? key = some fn) :
    Origin history (.platform (.api (.functions call))) before key fn.content := by
  cases call with
  | get asked => exact .of_eq (StoreCall.execute_get_eq_ok accepted).2 found
  | list => exact .of_eq (StoreCall.execute_list_eq_ok accepted).2 found
  | create asked spec =>
      obtain ⟨absent, contentEq, stores⟩ := Store.create_eq_ok accepted
      obtain ⟨req, rfl, rfl⟩ := reproduces
      rw [stores] at found
      split at found
      · next isNew =>
          obtain rfl := Option.some.inj found
          exact .created rfl absent isNew contentEq
      · exact .kept found (.refl _)
  | update object =>
      obtain ⟨stored, -, -, contentEq, stores⟩ := Store.update_eq_ok accepted
      obtain ⟨asked, read, member, keyEq, same⟩ := reproduces
      rw [stores] at found
      split at found
      · next isObject =>
          obtain rfl := Option.some.inj found
          exact .read (embeds _ _ member) (isObject.trans keyEq) (contentEq ▸ same)
      · exact .kept found (.refl _)
  | patch asked patch =>
      obtain ⟨stored, storedFound, contentEq, -, stores⟩ := Store.patch_eq_ok accepted
      rw [stores] at found
      split at found
      · next isStored =>
          obtain rfl := Option.some.inj found
          refine .kept (isStored ▸ storedFound) ?_
          rw [contentEq]
          exact ⟨rfl, rfl, rfl, rfl, rfl, rfl⟩
      · exact .kept found (.refl _)
  | delete asked =>
      simp only [StoreCall.execute, Store.delete] at accepted
      split at accepted
      · cases accepted
      · obtain ⟨-, rfl⟩ := Prod.mk.inj accepted
        rw [Store.find?_erase] at found
        split at found
        · cases found
        · exact .kept found (.refl _)

/-- An accepted call to the functions reaches the store. -/
theorem SystemCall.execute_functions [DecidableEq Pid] {call : FunctionCall} {value : call.Value}
    {circumstance : SystemCall.Circumstance} {before after : System Pid}
    (executed : (SystemCall.platform (.api (.functions call))).execute circumstance before =
      some (.ok value, after)) :
    call.execute FunctionPatch.apply before.functions = (.ok value, after.functions) := by
  obtain ⟨responseEq, rfl⟩ := Prod.mk.inj (Option.some.inj executed)
  apply @Operator.execute_functions call circumstance.platform.api before.platform.cluster _ value
  exact congrArg some (Prod.ext responseEq rfl)

/-- The inversion of a call: where each stored content comes from. -/
theorem origin_of_execute [DecidableEq Pid] {history : SystemHistory Pid}
    {request : SystemCall Pid} {circumstance : SystemCall.Circumstance} {before after : System Pid}
    {response : request.Response}
    (executed : request.execute circumstance before = some (response, after))
    (reproduces : ReproducesIn history request) {key : NamespacedName} {fn : Function}
    (found : after.functions.find? key = some fn) :
    Origin history request before.functions key fn.content := by
  cases request with
  | portal pid call =>
      simp only [SystemCall.execute] at executed
      split at executed
      · cases executed
      · obtain ⟨-, rfl⟩ := Prod.mk.inj (Option.some.inj executed)
        rcases call.functions_of_execute circumstance.portal before.world with
          same | ⟨req, rfl, creates⟩
        · exact .of_eq same found
        · cases creates with
          | kept same => exact .of_eq same found
          | created absent contentEq stores =>
              have foundAfter := found
              simp only [System.functions, System.withWorld] at foundAfter
              rw [stores] at foundAfter
              split at foundAfter
              · next isNew =>
                  obtain rfl := Option.some.inj foundAfter
                  exact .created rfl absent isNew contentEq
              · exact .kept foundAfter (.refl _)
  | platform call =>
      simp only [SystemCall.execute] at executed
      split at executed
      · cases executed
      · next platformResponse platform answered =>
          obtain ⟨-, rfl⟩ := Prod.mk.inj (Option.some.inj executed)
          cases call with
          | api call =>
              obtain ⟨part, embeds, apiPart, apiEmbeds, apiReproduces⟩ := reproduces
              obtain ⟨responseEq, platformEq⟩ := Prod.mk.inj (Option.some.inj answered)
              have apiExecuted : call.execute circumstance.platform.api before.platform.cluster =
                  some (platformResponse, platform.cluster) := by
                rw [← responseEq, ← platformEq]
                rfl
              by_cases accepted : ∃ (functionCall : FunctionCall) (value : functionCall.Value),
                  (⟨call, platformResponse⟩ : Answered ApiCall ApiCall.Response) =
                    ⟨.functions functionCall, Except.ok value⟩
              · obtain ⟨functionCall, value, answeredEq⟩ := accepted
                cases answeredEq
                refine .of_functions ?_ (Operator.execute_functions apiExecuted) apiReproduces found
                intro inner answer member
                exact mem_of_embedsPlatform embeds (mem_of_embedsApi apiEmbeds member)
              · have same := Operator.execute_functions_eq call _ apiExecuted
                  fun functionCall value answeredEq => accepted ⟨functionCall, value, answeredEq⟩
                exact .of_eq same found
          | _ =>
              have same := PlatformCall.cluster_of_execute (by trivial) answered
              exact .of_eq (congrArg Cluster.functions same) found

/-! ### Runs -/

section Runs

variable [DecidableEq Pid] {settings : Portal.Settings} {authn : Portal.Passkeys.WebAuthn Response}
variable {system : System Pid} {tasks : Pid → SystemTask Response} {events : List (SystemEvent Pid)}
variable {last : Processes Pid (SystemCall Pid) SystemCall.Response SystemOutcome (System Pid)}
variable {good : NamespacedName → FunctionSpec → Prop}

/-- What is good depends only on the identity of a function. -/
def DependsOnIdentity (good : NamespacedName → FunctionSpec → Prop) : Prop :=
  ∀ key old new, Operator.SameIdentity old new → good key old → good key new

/-- All stored functions are good. -/
def System.AllFunctions (good : NamespacedName → FunctionSpec → Prop) (system : System Pid) : Prop :=
  ∀ key fn, system.functions.find? key = some fn → good key fn.content

/-- The requests for new objects of a run ask for good ones. -/
def CreatesOnly (good : NamespacedName → FunctionSpec → Prop) (events : List (SystemEvent Pid)) :
    Prop :=
  ∀ event ∈ events, ∀ req, event.request.Creates req →
    event.before.functions.find? req.key = none → good req.key (Operator.newSpec req)

/-- What depends only on the identity of functions and holds of new objects
holds of all functions in every run. -/
theorem SystemRuns.allFunctions (ran : SystemRuns settings authn system tasks events last)
    (respects : DependsOnIdentity good)
    (initially : system.AllFunctions good) (creations : CreatesOnly good events) :
    last.shared.AllFunctions good := by
  -- what processes have read is good as well, since it may be written back
  have invariant : (Event.lastShared system events).AllFunctions good ∧
      ∀ event ∈ events, ∀ asked old,
        event.answered = ⟨.platform (.api (.functions (.get asked))), Except.ok old⟩ →
          good old.key old.content := by
    refine ran.linked.run_induction
      (motive := fun early state => state.AllFunctions good ∧
        ∀ event ∈ early, ∀ asked old,
          event.answered = ⟨.platform (.api (.functions (.get asked))), Except.ok old⟩ →
            good old.key old.content) ⟨initially, by simp⟩ ?_
    rintro early event late rfl ⟨stored, readGood⟩
    obtain ⟨circumstance, executed⟩ := Processes.Ran.executed ran List.mem_append_cons_self
    have reproduces := Processes.Ran.assertion ran
      ((tasks event.pid).program_reproduces settings authn event.pid)
    refine ⟨fun key fn found => ?_, fun other member asked old answeredEq => ?_⟩
    · cases origin_of_execute executed reproduces found with
      | kept oldFound same => exact respects _ _ _ same (stored _ _ oldFound)
      | read member keyEq same =>
          obtain ⟨reading, readingMember, -, answeredEq⟩ := Event.mem_own.mp member
          exact keyEq ▸ respects _ _ _ same (readGood reading readingMember _ _ answeredEq)
      | created creates absent keyEq contentEq =>
          rw [keyEq, contentEq]
          exact creations event List.mem_append_cons_self _ creates absent
    · rcases List.mem_append.mp member with before | now
      · exact readGood other before asked old answeredEq
      · obtain rfl := List.mem_singleton.mp now
        obtain ⟨pid, request, response, before, after⟩ := other
        cases answeredEq
        have found := (StoreCall.execute_get_eq_ok (SystemCall.execute_functions executed)).1
        rw [Store.key_of_find?_eq_some found]
        exact stored asked old found
  rw [ran.lastShared]
  exact invariant.1

/-- A process activated a function under a name. -/
def ActivatedIn (name : String) (fn : Function) (history : SystemHistory Pid) : Prop :=
  ∃ part, EmbedsPlatform part history ∧ Ingestor.Activated name fn part

/-- The functions that processes activate are good, and have the name. -/
theorem SystemRuns.activated (ran : SystemRuns settings authn system tasks events last)
    (respects : DependsOnIdentity good)
    (initially : system.AllFunctions good) (creations : CreatesOnly good events)
    {pid : Pid} {name : String} {fn : Function} (activated : ActivatedIn name fn (Event.own pid events)) :
    good ⟨"default", name⟩ fn.content := by
  obtain ⟨part, embeds, apiPart, apiEmbeds, read, object, readMember, keyEq, updated⟩ := activated
  have readEq : read.key = ⟨"default", name⟩ := by
    obtain ⟨reading, -, -, -, circumstance, executed⟩ := Processes.Ran.executed_of_mem_own ran
      (mem_of_embedsPlatform embeds (mem_of_embedsApi apiEmbeds readMember))
    exact Store.key_of_find?_eq_some
      (StoreCall.execute_get_eq_ok (SystemCall.execute_functions executed)).1
  obtain ⟨updating, member, -, -, circumstance, executed⟩ := Processes.Ran.executed_of_mem_own ran
    (mem_of_embedsPlatform embeds (mem_of_embedsApi apiEmbeds updated))
  obtain ⟨stored, -, -, -, stores⟩ := Store.update_eq_ok (SystemCall.execute_functions executed)
  have found : updating.after.functions.find? ⟨"default", name⟩ = some fn := by
    rw [stores, if_pos (readEq.symm.trans keyEq.symm)]
  -- the run up to the update is a run as well
  obtain ⟨early, late, split⟩ := List.append_of_mem member
  have splitAfter : events = (early ++ [updating]) ++ late := by simp [split]
  obtain ⟨middle, ranEarly, -⟩ := Processes.ran_append.mp (splitAfter ▸ ran)
  have earlyCreations : CreatesOnly good (early ++ [updating]) := by
    intro event eventMember
    exact creations event (splitAfter ▸ List.mem_append_left late eventMember)
  have all := SystemRuns.allFunctions ranEarly respects initially earlyCreations
  rw [ranEarly.lastShared, Event.lastShared_append] at all
  exact all _ fn found

end Runs

end Litefunctions
