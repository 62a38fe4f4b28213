import Litefunctions.FunctionMirrors
import Litefunctions.SystemRuns

/-!
# Methods of endpoints at the ingestor

The portal keeps the methods of a function in its endpoints table.  The
ingestor compares the method of a request with the one of the Function object,
but nothing ever gives an object a method: the remote call that creates objects
has none, and no other call changes it.
-/

namespace Litefunctions

open Program Ingestor

/-- The methods of the endpoints of a function in the portal's database. -/
def Portal.Database.endpointMethods (db : Portal.Database) (project name : String) : List String :=
  (db.endpoints.rows.filter fun endpoint =>
    (db.function? endpoint.functionID).any fun row =>
      row.name = name ∧ (db.project? row.projectID).any (·.name = project)).map (·.method)

/-- The answer of the ingestor and the calls that it made for a request: unless
the method of the request is one of these up to case, the request is refused
for its method and not handed on. -/
def Refuses {Pid : Type} (methods : List String) (r : HttpRequest) (answer : Answer)
    (history : SystemHistory Pid) : Prop :=
  (∀ method ∈ methods, equalFold r.method method = false) →
    (∃ allow, answer = .methodNotAllowed allow) ∧
      ∀ answered ∈ history, ∀ request, answered.1 = .platform request → ¬ Serves request

section Runs

variable {Pid Response : Type} [DecidableEq Pid]
variable {settings : Portal.Settings} {authn : Portal.Passkeys.WebAuthn Response}
variable {system : System Pid} {tasks : Pid → SystemTask Response}
variable {events early late : List (SystemEvent Pid)}
variable {last : Processes Pid (SystemCall Pid) SystemCall.Response SystemOutcome (System Pid)}

/-- The content expects no method. -/
def NoMethod (_key : NamespacedName) (content : FunctionSpec) : Prop :=
  content.method = ""

theorem noMethod_dependsOnIdentity : DependsOnIdentity NoMethod :=
  fun _ _ _ same noMethod => same.2.2.2.1.trans noMethod

/-- No Function object ever gets a method. -/
theorem SystemRuns.noMethod (ran : SystemRuns settings authn system tasks events last)
    (initially : system.AllFunctions NoMethod) : last.shared.AllFunctions NoMethod :=
  ran.allFunctions noMethod_dependsOnIdentity initially fun _ _ _ _ _ => rfl

/-- A method is refused only where a Function object expects one. -/
theorem SystemRuns.not_methodNotAllowed (ran : SystemRuns settings authn system tasks events last)
    (initially : system.AllFunctions NoMethod) {pid : Pid} {task : PlatformTask} {r : HttpRequest}
    (isTask : tasks pid = .platform task) (serves : task.deployedRequest = some r)
    {answer : Answer} (finished : last.program pid = .done (.ofPlatform (.answered answer)))
    (allow : String) : answer ≠ .methodNotAllowed allow := by
  intro isRefused
  generalize isName : (parsePath r.path).2 = name
  have along := SystemTask.along_platform settings authn pid
    (PlatformTask.deployed_calls serves isName)
  rw [← isTask] at along
  obtain ⟨part, result, embeds, outcomeEq, expects⟩ := Processes.Ran.finished ran along finished
  obtain ⟨fn, activated, hasMethod⟩ := expects allow (by
    rw [← SystemOutcome.ofPlatform.inj outcomeEq, isRefused])
  refine hasMethod (ran.activated noMethod_dependsOnIdentity initially ?_ ⟨part, embeds, activated⟩)
  exact fun _ _ _ _ _ => rfl

/-- Whatever methods the endpoints of a function have at a moment of a run, a
request for it is refused as they say exactly when they do not ask for it. -/
theorem refuses_iff (ran : SystemRuns settings authn system tasks (early ++ late) last)
    (initially : system.AllFunctions NoMethod) {pid : Pid} {task : PlatformTask} {r : HttpRequest}
    (isTask : tasks pid = .platform task) (serves : task.deployedRequest = some r)
    {answer : Answer} (finished : last.program pid = .done (.ofPlatform (.answered answer))) :
    Refuses ((Event.lastShared system early).db.endpointMethods (parsePath r.path).1
        (parsePath r.path).2) r answer (Event.own pid (early ++ late)) ↔
      ∃ method ∈ (Event.lastShared system early).db.endpointMethods (parsePath r.path).1
        (parsePath r.path).2, equalFold r.method method = true := by
  generalize (Event.lastShared system early).db.endpointMethods (parsePath r.path).1
    (parsePath r.path).2 = methods
  constructor
  · intro refuses
    by_contra isOther
    have noMethod : ∀ method ∈ methods, equalFold r.method method = false := by
      intro method member
      by_contra isMethod
      exact isOther ⟨method, member, by simpa using isMethod⟩
    obtain ⟨⟨allow, isRefused⟩, -⟩ := refuses noMethod
    exact ran.not_methodNotAllowed initially isTask serves finished allow isRefused
  · rintro ⟨method, member, isMethod⟩ isOther
    exact absurd isMethod (by simp [isOther method member])

end Runs

/-! ### A request with another method -/

/-- The system with a project that has no functions. -/
def newProjectSystem : System Nat where
  db := Portal.newProjectWorld.db
  transaction := none
  platform :=
    { cluster := Portal.newProjectWorld.cluster
      broker := .empty
      readers := []
      workers := [] }
  clock := 0

def deleteRequest : HttpRequest where
  path := "/lambda/shop/total"
  method := "DELETE"
  draws _ := ⟨0, Ingestor.letterBytes_pos⟩

/-- The portal synchronises the project, which creates a function with an
endpoint for `GET`; then a request for the function arrives. -/
def syncAndDelete : Nat → SystemTask Unit
  | 0 => .portal Portal.syncLua.request
  | _ => .platform (.sync (.deployed (5 * minute)) deleteRequest)

def syncThenDelete : List (Nat × SystemCall.Circumstance) :=
  (List.replicate 13 0 ++ List.replicate 4 1).map fun pid =>
    (pid, { portal := { files := ["/functions/lua/total.lua"] } })

/-- The processes before the run. -/
abbrev startOfSync : Processes Nat (SystemCall Nat) SystemCall.Response SystemOutcome (System Nat) :=
  startSystem Portal.exampleSettings Portal.refusingAuthn newProjectSystem syncAndDelete

/-- The events of the synchronisation. -/
def syncEvents : List (SystemEvent Nat) :=
  (startOfSync.run SystemCall.execute syncThenDelete).1.take 13

/-- The events of the request. -/
def deleteEvents : List (SystemEvent Nat) :=
  (startOfSync.run SystemCall.execute syncThenDelete).1.drop 13

def afterDelete : Processes Nat (SystemCall Nat) SystemCall.Response SystemOutcome (System Nat) :=
  (startOfSync.run SystemCall.execute syncThenDelete).2

theorem syncThenDelete_runs : SystemRuns Portal.exampleSettings Portal.refusingAuthn
    newProjectSystem syncAndDelete (syncEvents ++ deleteEvents) afterDelete := by
  have ran := @Processes.ran_run _ _ _ _ _ _ _ SystemCall.execute startOfSync syncThenDelete
  rwa [← List.take_append_drop 13 (startOfSync.run SystemCall.execute syncThenDelete).1] at ran

private def isProxied : SystemProgram Nat SystemOutcome → Bool
  | .done (.ofPlatform (.answered .proxied)) => true
  | _ => false

private theorem eq_of_isProxied {program : SystemProgram Nat SystemOutcome}
    (proxied : isProxied program = true) :
    program = .done (.ofPlatform (.answered .proxied)) := by
  unfold isProxied at proxied
  split at proxied
  · rfl
  · cases proxied

theorem deleteRequest_proxied :
    afterDelete.program 1 = .done (.ofPlatform (.answered .proxied)) :=
  eq_of_isProxied (by decide +kernel)

theorem deleteRequest_refuses_iff :
    Refuses ((Event.lastShared newProjectSystem syncEvents).db.endpointMethods
        (parsePath deleteRequest.path).1 (parsePath deleteRequest.path).2) deleteRequest .proxied
        (Event.own 1 (syncEvents ++ deleteEvents)) ↔
      ∃ method ∈ (Event.lastShared newProjectSystem syncEvents).db.endpointMethods
        (parsePath deleteRequest.path).1 (parsePath deleteRequest.path).2,
        equalFold deleteRequest.method method = true :=
  refuses_iff syncThenDelete_runs (by rintro key fn ⟨⟩) rfl rfl deleteRequest_proxied

/-- After the synchronisation the function has an endpoint for `GET` only, and
the request is proxied. -/
theorem deleteRequest_not_refused :
    ¬ ∀ early late last, SystemRuns Portal.exampleSettings Portal.refusingAuthn newProjectSystem
        syncAndDelete (early ++ late) last →
      Event.own 1 early = [] → ∀ answer, last.program 1 = .done (.ofPlatform (.answered answer)) →
        Refuses ((Event.lastShared newProjectSystem early).db.endpointMethods
          (parsePath deleteRequest.path).1 (parsePath deleteRequest.path).2) deleteRequest answer
          (Event.own 1 late) := by
  intro refuses
  have none : (Event.own 1 syncEvents).length = 0 := by
    decide +kernel
  have isGet : (Event.lastShared newProjectSystem syncEvents).db.endpointMethods
      (parsePath deleteRequest.path).1 (parsePath deleteRequest.path).2 = ["GET"] := by
    decide +kernel
  have refused := refuses _ _ _ syncThenDelete_runs (List.length_eq_zero_iff.mp none) _
    deleteRequest_proxied
  rw [isGet] at refused
  obtain ⟨⟨allow, isRefused⟩, -⟩ := refused (by decide)
  cases isRefused

end Litefunctions
