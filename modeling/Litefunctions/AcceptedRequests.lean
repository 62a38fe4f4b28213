import Litefunctions.ReplyDelivery

/-!
# Accepted requests

`Sync` answers 202 as soon as the broker has taken the message of an
asynchronous function.  The activation before it only marks the function
active; the runtime is deployed and subscribes later.  An accepted message
reaches a consumer exactly when the runtime of the function listens under the
language of the Function object at that moment.
-/

namespace Litefunctions

open Event Program Ingestor

/-- The consumer of the function that a request is for, in the runtime of the
request's language. -/
def PlatformTask.ConsumesFor (req : Req) : PlatformTask → Prop
  | runtime _ language project name _ _ =>
      project = req.project ∧ name = req.name ∧ language.tag = req.lang
  | _ => False

/-- The stream that a runtime reads, and the filter of its consumer there. -/
def PlatformTask.readsStream : PlatformTask → Option (String × String)
  | runtime _ .python project name code _ =>
      some (project, (Language.python.consumer project name code).subject)
  | _ => none

variable {Pid : Type} [DecidableEq Pid]

/-- The message is delivered to a running consumer of the function. -/
def DeliveredToConsumer (tasks : Pid → PlatformTask) (events : List (PlatformEvent Pid))
    (event : PlatformEvent Pid) (req : Req) (msg : Msg) : Prop :=
  ∃ pid, (tasks pid).ConsumesFor req ∧ DeliveredTo pid events event msg

/-- The message is retained in a stream, and a consumer of the function reads
it there. -/
def RetainedForConsumer (tasks : Pid → PlatformTask) (event : PlatformEvent Pid) (req : Req)
    (msg : Msg) : Prop :=
  ∃ pid name filter stream, (tasks pid).ConsumesFor req ∧
    (tasks pid).readsStream = some (name, filter) ∧
    event.after.broker.stream name = some stream ∧
    (execSubject req, msg) ∈ stream.messages ∧
    Subject.matchesPattern filter (execSubject req) = true

/-- The broker takes the message of the request. -/
def SubmittedAt (event : PlatformEvent Pid) (req : Req) (msg : Msg) : Prop :=
  event.answered = ⟨.broker (.publish (execSubject req) msg), true⟩

/-- Every accepted request has been handed to a consumer of its function. -/
def AcceptedReachConsumers (tasks : Pid → PlatformTask) (events : List (PlatformEvent Pid))
    (last : Processes Pid PlatformCall PlatformCall.Response PlatformOutcome Platform) : Prop :=
  ∀ pid client r, tasks pid = .sync client r →
    last.program pid = .done (.answered .accepted) →
    ∃ early event late lang msg, events = early ++ event :: late ∧ event.pid = pid ∧
      SubmittedAt event (requestOf r lang) msg ∧
      (DeliveredToConsumer tasks events event (requestOf r lang) msg ∨
        RetainedForConsumer tasks event (requestOf r lang) msg)

/-- A runtime of the function holds its subscription, in a language whose
runtime subscribes under the name of the language. -/
def ConsumerListens (tasks : Pid → PlatformTask) (early : List (PlatformEvent Pid)) (req : Req) :
    Prop :=
  req.lang ∈ ["go", "ts", "lua"] ∧ ∃ pid, (tasks pid).ConsumesFor req ∧
    ∃ id, Holds (tasks pid).subject id (own pid early)

/-- Every accepted request was published while a consumer of its function
listened. -/
def AcceptedWhileListening (tasks : Pid → PlatformTask) (events : List (PlatformEvent Pid))
    (last : Processes Pid PlatformCall PlatformCall.Response PlatformOutcome Platform) : Prop :=
  ∀ pid client r, tasks pid = .sync client r →
    last.program pid = .done (.answered .accepted) →
    ∃ early event late lang msg, events = early ++ event :: late ∧ event.pid = pid ∧
      SubmittedAt event (requestOf r lang) msg ∧ ConsumerListens tasks early (requestOf r lang)

/-- The subscription of a consumer matches the message of a request exactly in
the languages whose runtime has their name as its tag. -/
theorem PlatformTask.ConsumesFor.matches_iff {task : PlatformTask} {r : HttpRequest}
    {lang : String} (consumes : task.ConsumesFor (requestOf r lang)) :
    Subject.matchesPattern task.subject (execSubject (requestOf r lang)) = true ↔
      lang ∈ ["go", "ts", "lua"] := by
  cases task with
  | runtime deployment language project name code rounds =>
      obtain ⟨rfl, rfl, rfl⟩ := consumes
      have idToken : Subject.IsToken r.reqID := randString_reqID_isToken r.draws
      refine (consumer_matches_iff (parsePath r.path).1 (parsePath r.path).2 idToken language
        code).trans ?_
      cases language <;> decide
  | _ => exact consumes.elim

theorem PlatformTask.ConsumesFor.request_eq_none {task : PlatformTask} {req : Req}
    (consumes : task.ConsumesFor req) : task.request = none := by
  cases task with
  | runtime deployment language project name code rounds => rfl
  | _ => exact consumes.elim

omit [DecidableEq Pid] in
/-- No stream is read under the name of its language. -/
theorem not_retainedForConsumer {tasks : Pid → PlatformTask} {event : PlatformEvent Pid}
    {r : HttpRequest} {lang : String} {msg : Msg} :
    ¬ RetainedForConsumer tasks event (requestOf r lang) msg := by
  rintro ⟨pid, name, filter, stream, consumes, reads, -, -, isMatch⟩
  cases taskEq : tasks pid with
  | runtime deployment language project name code rounds =>
      rw [taskEq] at consumes reads
      cases language with
      | python =>
          obtain ⟨-, rfl⟩ := Prod.mk.inj (Option.some.inj reads)
          have known := consumes.matches_iff.mp isMatch
          obtain ⟨-, -, langEq⟩ := consumes
          rw [show lang = "python" from langEq.symm] at known
          exact absurd known (by decide)
      | _ => cases reads
  | _ =>
      rw [taskEq] at consumes
      exact consumes.elim

variable {tasks : Pid → PlatformTask} {platform : Platform}
variable {early late : List (PlatformEvent Pid)} {event : PlatformEvent Pid}
variable {last : Processes Pid PlatformCall PlatformCall.Response PlatformOutcome Platform}

/-- A process that serves no request subscribes to its one subject. -/
theorem PlatformRuns.subject_eq {events : List (PlatformEvent Pid)}
    (ran : PlatformRuns platform tasks events last) {pid : Pid}
    (servesNone : (tasks pid).request = none) {pattern : String} {id : Nat}
    (made : SubscribedAs pattern id (own pid events)) : pattern = (tasks pid).subject := by
  obtain ⟨capacity, member⟩ := made
  obtain ⟨history, rest, ownEq⟩ := List.append_of_mem member
  exact ran.assertion_of_own_eq (PlatformTask.other_calls servesNone) ownEq

/-- A submitted message reaches a consumer exactly if one listens. -/
theorem PlatformRuns.reachesConsumer_iff
    (ran : PlatformRuns platform tasks (early ++ event :: late) last)
    {r : HttpRequest} {lang : String} {msg : Msg}
    (submitted : SubmittedAt event (requestOf r lang) msg) :
    (DeliveredToConsumer tasks (early ++ event :: late) event (requestOf r lang) msg ∨
        RetainedForConsumer tasks event (requestOf r lang) msg) ↔
      ConsumerListens tasks early (requestOf r lang) := by
  rw [or_iff_left not_retainedForConsumer]
  have earlier : ∀ pid, own pid early ⊆ own pid (early ++ event :: late) := by
    intro pid
    rw [own_append]
    exact List.subset_append_left _ _
  constructor
  · rintro ⟨pid, consumes, pattern, id, made, received⟩
    obtain ⟨another, holds, isMatch⟩ := (received_iff ran ran.endOwn made submitted).mp received
    obtain rfl := ran.subject_eq consumes.request_eq_none (holds.1.mono (earlier pid))
    exact ⟨consumes.matches_iff.mp isMatch, pid, consumes, id, holds⟩
  · rintro ⟨known, pid, consumes, id, holds⟩
    have made := holds.1.mono (earlier pid)
    refine ⟨pid, consumes, _, id, made, (received_iff ran ran.endOwn made submitted).mpr ?_⟩
    exact ⟨_, holds, consumes.matches_iff.mpr known⟩

/-- In every run of the platform, every accepted request reaches a consumer of
its function exactly when each was published while one listened. -/
theorem acceptedReachConsumers_iff (platform : Platform) (tasks : Pid → PlatformTask)
    (schedule : List (Pid × PlatformCall.Circumstance)) :
    AcceptedReachConsumers tasks (platformEvents platform tasks schedule)
        (platformAfter platform tasks schedule) ↔
      AcceptedWhileListening tasks (platformEvents platform tasks schedule)
        (platformAfter platform tasks schedule) := by
  have ran : PlatformRuns platform tasks _ _ := platformRuns_run platform tasks schedule
  constructor
  · intro reach pid client r isSync accepted
    obtain ⟨early, event, late, lang, msg, split, isOwn, submitted, reaches⟩ :=
      reach pid client r isSync accepted
    rw [split] at ran reaches
    exact ⟨early, event, late, lang, msg, split, isOwn, submitted,
      (ran.reachesConsumer_iff submitted).mp reaches⟩
  · intro listening pid client r isSync accepted
    obtain ⟨early, event, late, lang, msg, split, isOwn, submitted, listens⟩ :=
      listening pid client r isSync accepted
    refine ⟨early, event, late, lang, msg, split, isOwn, submitted, ?_⟩
    rw [split] at ran ⊢
    exact (ran.reachesConsumer_iff submitted).mpr listens

/-! ### The first request of an idle function -/

/-- An asynchronous Go function without a lease, and without a runtime. -/
def idlePlatform : Platform where
  cluster :=
    { functions := (Store.empty.create ⟨"default", "one"⟩
        { isActive := false
          isAsync := true
          deProvisionTime := .unset
          language := "go"
          name := "one"
          method := ""
          project := "projone"
          gitCreds := "" }).2
      deployments := Store.empty
      services := Store.empty
      clock := 200 * second }
  broker := .empty
  readers := []
  workers := []

def asyncRequest : HttpRequest where
  path := "/lambda/projone/one"
  method := "POST"
  draws _ := ⟨0, Ingestor.letterBytes_pos⟩

/-- A request, the reconciliation of its function, and the runtime. -/
def requestAndRuntime : Nat → PlatformTask
  | 0 => .sync (.deployed (5 * minute)) asyncRequest
  | 1 => .operator (.reconcile defaultSettings ⟨"default", "one"⟩)
  | _ => .runtime ⟨"default", "litefunctions-runtime-go-projone-one"⟩ .go "projone" "one"
      echoCode 1

/-- The request is answered, the function reconciled, and the runtime started. -/
def firstRequest : List (Nat × PlatformCall.Circumstance) :=
  [0, 0, 0, 0, 0, 1, 1, 1, 1, 1, 1, 1, 2, 2].map fun pid => (pid, { data := [123, 125] })

private def isSubscription : PlatformCall → Bool
  | .broker (.subscribe _ _) => true
  | _ => false

private def isPublication : PlatformCall → Bool
  | .broker (.publish _ _) => true
  | _ => false

private def isAccepted : PlatformProgram PlatformOutcome → Bool
  | .done (.answered .accepted) => true
  | _ => false

private theorem eq_of_isAccepted {program : PlatformProgram PlatformOutcome}
    (accepted : isAccepted program = true) : program = .done (.answered .accepted) := by
  unfold isAccepted at accepted
  split at accepted
  · rfl
  · cases accepted

/-- The accepted message is lost. -/
theorem first_request_lost :
    ¬ AcceptedReachConsumers requestAndRuntime
      (platformEvents idlePlatform requestAndRuntime firstRequest)
      (platformAfter idlePlatform requestAndRuntime firstRequest) := by
  intro reach
  have accepted : (platformAfter idlePlatform requestAndRuntime firstRequest).program 0 =
      .done (.answered .accepted) :=
    eq_of_isAccepted (by decide +kernel)
  obtain ⟨early, event, late, lang, msg, split, -, submitted, -, pid, -, id, ⟨capacity, made⟩, -⟩ :=
    (acceptedReachConsumers_iff idlePlatform requestAndRuntime firstRequest).mp reach 0 _ _ rfl
      accepted
  -- In this run nothing is published once there is a subscription.
  have order : ((platformEvents idlePlatform requestAndRuntime firstRequest).map
      fun event => (isSubscription event.request, isPublication event.request)).Pairwise
      fun first second => ¬ (first.1 = true ∧ second.2 = true) := by
    decide +kernel
  obtain ⟨subscribing, member, -, answeredEq⟩ := mem_own.mp made
  rw [split, List.map_append, List.pairwise_append] at order
  refine order.2.2 _ (List.mem_map_of_mem member) _ (List.mem_map_of_mem List.mem_cons_self) ⟨?_, ?_⟩
  · rw [show subscribing.request = _ from congrArg Sigma.fst answeredEq]
    rfl
  · rw [show event.request = _ from congrArg Sigma.fst submitted]
    rfl

end Litefunctions
