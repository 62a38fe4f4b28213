import Litefunctions.EnforcedMethods

/-!
# The identity of served functions

A function is known by its project and its name in the portal and in the paths
of the ingestor, but a Function object only by its name.  The remote call that
creates one succeeds where the name is in use, and the activation of a function
does not mention its project.  So the first project that uses a name serves the
requests of all projects for it.
-/

namespace Litefunctions

open Program Ingestor

section Runs

variable {Pid Response : Type} [DecidableEq Pid]
variable {settings : Portal.Settings} {authn : Portal.Passkeys.WebAuthn Response}
variable {system : System Pid} {tasks : Pid → SystemTask Response}
variable {events : List (SystemEvent Pid)}
variable {last : Processes Pid (SystemCall Pid) SystemCall.Response SystemOutcome (System Pid)}

/-- A process serves requests for the function of a project. -/
def Requested (tasks : Pid → SystemTask Response) (project name : String) : Prop :=
  ∃ pid task r, tasks pid = .platform task ∧ task.deployedRequest = some r ∧
    parsePath r.path = (project, name)

/-- The call hands on a request for the function of a project: it does so as a
function says that it activated, and what it activated is this function. -/
def ServesOwn (r : HttpRequest) (project name : String) (history : SystemHistory Pid)
    (request : PlatformCall) : Prop :=
  (∃ fn, ActivatedIn name fn history ∧ UsesFunction r (Operator.activateResponse fn) request) ∧
    ∀ fn, ActivatedIn name fn history → fn.content.project = project ∧ fn.content.name = name

/-- Every request that is served is served by the function that it names. -/
def AllServeOwn (tasks : Pid → SystemTask Response) (events : List (SystemEvent Pid)) : Prop :=
  Event.AtEvery (fun early event => ∀ task r request project name,
    tasks event.pid = .platform task → task.deployedRequest = some r →
    parsePath r.path = (project, name) → event.request = .platform request → Serves request →
      ServesOwn r project name (Event.own event.pid early) request) events

/-- Where a Function object is created, its project is the one under which its
name is requested. -/
def CreatesForRequests (tasks : Pid → SystemTask Response) (events : List (SystemEvent Pid)) :
    Prop :=
  ∀ event ∈ events, ∀ req, event.request.Creates req →
    event.before.functions.find? req.key = none → req.namespace_ = "default" →
      ∀ project, Requested tasks project req.name → req.project = project

/-- The content has the name of its key and the project under which this name
is requested. -/
def IsOwn (tasks : Pid → SystemTask Response) (key : NamespacedName) (content : FunctionSpec) :
    Prop :=
  content.name = key.name ∧ (key.namespace_ = "default" →
    ∀ project, Requested tasks project key.name → content.project = project)

omit [DecidableEq Pid] in
theorem isOwn_dependsOnIdentity (tasks : Pid → SystemTask Response) :
    DependsOnIdentity (IsOwn tasks) := by
  rintro key old new ⟨-, projectEq, nameEq, -⟩ ⟨isName, isProject⟩
  apply And.intro (nameEq.trans isName)
  intro inDefault project requested
  exact projectEq.trans (isProject inDefault project requested)

/-- In every run from a cluster without Function objects, in which each object is
created for the project under which its name is requested, every request is
served by the function that it names. -/
theorem allServeOwn (ran : SystemRuns settings authn system tasks events last)
    (starts : system.functions.objects = []) (creations : CreatesForRequests tasks events) :
    AllServeOwn tasks events := by
  rintro early event late rfl task r request project name isTask serves isPath requestEq hands
  have requested : Requested tasks project name := ⟨event.pid, task, r, isTask, serves, isPath⟩
  have isName : (parsePath r.path).2 = name := congrArg Prod.snd isPath
  have initially : system.AllFunctions (IsOwn tasks) := by
    intro key fn found
    have member := Store.mem_of_find?_eq_some found
    rw [starts] at member
    cases member
  have created : CreatesOnly (IsOwn tasks) early := by
    intro other member req creates absent
    apply And.intro rfl
    intro inDefault project requested
    exact creations other (List.mem_append_left _ member) req creates absent inDefault project
      requested
  obtain ⟨middle, ranEarly, -⟩ := Processes.ran_append.mp ran
  constructor
  · have along := SystemTask.along_platform settings authn event.pid
      (PlatformTask.deployed_calls serves isName)
    rw [← isTask] at along
    obtain ⟨part, inner, embeds, innerEq, calls⟩ := Processes.Ran.assertion ran along
    obtain rfl := SystemCall.platform.inj (requestEq.symm.trans innerEq)
    obtain ⟨fn, activated, uses⟩ := calls.2 hands
    exact ⟨fn, ⟨part, embeds, activated⟩, uses⟩
  · intro fn activated
    have own := SystemRuns.activated ranEarly (isOwn_dependsOnIdentity tasks) initially created
      activated
    exact ⟨own.2 rfl project requested, own.1⟩

end Runs

/-- The project of a new object. -/
private def createsFor (project : String) : SystemCall Nat → Bool
  | .portal _ (.createFunctionCRD req) => req.project = project
  | .platform (.api (.functions (.create _ spec))) => spec.project = project
  | _ => true

private theorem project_eq_of_createsFor {project : String} {request : SystemCall Nat}
    {req : Operator.CreateFunctionRequest} (isFor : createsFor project request = true)
    (creates : request.Creates req) : req.project = project := by
  cases request with
  | platform call =>
      obtain rfl : call = _ := creates
      exact of_decide_eq_true isFor
  | portal pid call =>
      obtain rfl : call = _ := creates
      exact of_decide_eq_true isFor

theorem syncAndDelete_allServeOwn : AllServeOwn syncAndDelete (syncEvents ++ deleteEvents) := by
  apply allServeOwn syncThenDelete_runs rfl
  intro event member req creates _ _ project requested
  have forShop : ∀ event ∈ syncEvents ++ deleteEvents, createsFor "shop" event.request = true := by
    decide +kernel
  rw [project_eq_of_createsFor (forShop event member) creates]
  obtain ⟨pid, task, r, isTask, serves, isPath⟩ := requested
  have shopPath : (parsePath deleteRequest.path).1 = "shop" := by
    decide +kernel
  match pid with
  | 0 => cases isTask
  | pid + 1 =>
      obtain rfl := SystemTask.platform.inj isTask
      obtain rfl := Option.some.inj serves
      rw [← shopPath, isPath]

/-! ### A function of another project -/

/-- A request for a function of a project that has none. -/
def strayRequest : HttpRequest where
  path := "/lambda/other/total"
  method := "GET"
  draws _ := ⟨0, Ingestor.letterBytes_pos⟩

/-- The portal synchronises a project; then a request for a function of another
one arrives. -/
def syncAndStray : Nat → SystemTask Unit
  | 0 => .portal Portal.syncLua.request
  | _ => .platform (.sync (.deployed (5 * minute)) strayRequest)

def strayEvents : List (SystemEvent Nat) :=
  ((startSystem Portal.exampleSettings Portal.refusingAuthn newProjectSystem syncAndStray).run
    SystemCall.execute syncThenDelete).1

/-- The project of a function that an update returned. -/
private def updatesFor (project : String) : Answered (SystemCall Nat) SystemCall.Response → Bool
  | ⟨.platform (.api (.functions (.update _))), .ok fn⟩ => fn.content.project = project
  | _ => true

private def isProxy : SystemCall Nat → Bool
  | .platform (.proxy _) => true
  | _ => false

/-- The request is proxied to the function of the first project. -/
theorem stray_not_allServeOwn : ¬ AllServeOwn syncAndStray strayEvents := by
  intro serveOwn
  obtain ⟨event, member, isOwn, proxied⟩ :
      ∃ event ∈ strayEvents, event.pid = 1 ∧ isProxy event.request = true := by
    decide +kernel
  obtain ⟨early, late, split⟩ := List.append_of_mem member
  have isPath : parsePath strayRequest.path = ("other", "total") := by
    decide +kernel
  have isTask : syncAndStray event.pid = .platform (.sync (.deployed (5 * minute)) strayRequest) := by
    rw [isOwn]
    rfl
  obtain ⟨request, requestEq, hands⟩ : ∃ request, event.request = .platform request ∧
      Serves request := by
    unfold isProxy at proxied
    split at proxied
    · next proxy requestEq => exact ⟨_, requestEq, trivial⟩
    · cases proxied
  obtain ⟨⟨fn, activated, -⟩, own⟩ := serveOwn early event late split _ _ request _ _ isTask rfl
    isPath requestEq hands
  have isOther := (own fn activated).1
  obtain ⟨part, embeds, apiPart, apiEmbeds, read, object, -, -, updated⟩ := activated
  have made := mem_of_embedsPlatform embeds (mem_of_embedsApi apiEmbeds updated)
  have allShop : ∀ answered ∈ Event.own 1 strayEvents, updatesFor "shop" answered = true := by
    decide +kernel
  have isShop := allShop _ (by
    rw [split, Event.own_append, ← isOwn]
    exact List.mem_append_left _ made)
  simp [updatesFor, isOther] at isShop

end Litefunctions
