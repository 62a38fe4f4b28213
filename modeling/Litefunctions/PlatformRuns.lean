import Litefunctions.HeldSubscriptions
import Litefunctions.OperatorRuns
import Litefunctions.RuntimeProcesses

/-!
# Interleaved runs of the platform

Any number of requests, operator processes and runtimes run on one platform,
together with the goroutines that they start.  This file says which calls to
the broker each of them makes.
-/

namespace Litefunctions

open Program Platform Ingestor

/-- What a process of the platform does. -/
inductive PlatformTask where
  | sync (client : OperatorClient) (r : HttpRequest)
  | sse (client : OperatorClient) (r : HttpRequest) (rounds : Nat)
  | ws (client : OperatorClient) (r : HttpRequest) (rounds : Nat)
  | reader (index rounds : Nat)
  | runtime (deployment : NamespacedName) (language : Language) (project name : String)
      (code : Runtimes.UserCode) (rounds : Nat)
  | worker (index : Nat)
  | operator (task : Operator.Task)

/-- What a process of the platform returns. -/
inductive PlatformOutcome where
  | answered (answer : Answer)
  | operated (outcome : Operator.Outcome)
  | ended

namespace PlatformTask

def program : PlatformTask → PlatformProgram PlatformOutcome
  | sync client r => do return .answered (← Ingestor.sync client r)
  | sse client r rounds => do return .answered (← Ingestor.sse client r rounds)
  | ws client r rounds => do return .answered (← Ingestor.ws client r rounds)
  | reader index rounds => do
      let publishes ← awaitReader index
      readMessages publishes rounds
      return .ended
  | runtime deployment language project name code rounds => do
      Runtimes.runtime deployment language project name code rounds
      return .ended
  | worker index => do
      let outs ← awaitWorker index
      Runtimes.publishEach outs
      return .ended
  | operator task => do return .operated (← operate task.program)

/-- The request that a handler of the ingestor serves. -/
def request : PlatformTask → Option HttpRequest
  | sync _ r => some r
  | sse _ r _ => some r
  | ws _ r _ => some r
  | _ => none

/-- The processes that publish outputs of functions. -/
def publishesOutputs : PlatformTask → Bool
  | runtime _ _ _ _ _ _ => true
  | worker _ => true
  | _ => false

end PlatformTask

variable {Pid : Type}

def startPlatform (platform : Platform) (tasks : Pid → PlatformTask) :
    Processes Pid PlatformCall PlatformCall.Response PlatformOutcome Platform where
  shared := platform
  program pid := (tasks pid).program

/-- The events of a schedule. -/
def platformEvents [DecidableEq Pid] (platform : Platform) (tasks : Pid → PlatformTask)
    (schedule : List (Pid × PlatformCall.Circumstance)) : List (PlatformEvent Pid) :=
  ((startPlatform platform tasks).run PlatformCall.execute schedule).1

/-- The processes after a schedule. -/
def platformAfter [DecidableEq Pid] (platform : Platform) (tasks : Pid → PlatformTask)
    (schedule : List (Pid × PlatformCall.Circumstance)) :
    Processes Pid PlatformCall PlatformCall.Response PlatformOutcome Platform :=
  ((startPlatform platform tasks).run PlatformCall.execute schedule).2

/-- The processes can make these calls and end up as `last`. -/
def PlatformRuns [DecidableEq Pid] (platform : Platform) (tasks : Pid → PlatformTask)
    (events : List (PlatformEvent Pid))
    (last : Processes Pid PlatformCall PlatformCall.Response PlatformOutcome Platform) : Prop :=
  Processes.Ran PlatformCall.execute (startPlatform platform tasks) events last

namespace Ingestor

/-! ### Calls of the request handlers -/

/-- The request of a handler to the broker. -/
def requestOf (r : HttpRequest) (lang : String) : Req :=
  ⟨(parsePath r.path).1, (parsePath r.path).2, lang, r.reqID⟩

/-- The subject of the messages of a request. -/
def execSubject (req : Req) : String :=
  s!"{req.project}.{req.name}.exec.{req.lang}.{req.reqId}"

theorem subscribeSubject_eq (req : Req) : subscribeSubject req = replySubject req :=
  rfl

theorem submit_eq (r : HttpRequest) (body : Bytes) (lang : String) :
    submit r.path body lang r.reqID =
      (requestOf r lang, ⟨execSubject (requestOf r lang), body⟩) := by
  simp only [submit, requestOf, execSubject]

theorem produce_eq (r : HttpRequest) (lang : String) :
    produce r.path lang r.reqID =
      (requestOf r lang, fun msg => ⟨execSubject (requestOf r lang), msg⟩) := by
  simp only [produce, requestOf, execSubject]

/-- The calls that hand a request to the broker, or to the goroutine that
does. -/
def HandsOver : PlatformCall → Prop
  | .broker (.publish _ _) => True
  | .startReader _ => True
  | _ => False

/-- An answered call has handed the request over, under the language. -/
def HandedOver (r : HttpRequest) (lang : String)
    (answered : Answered PlatformCall PlatformCall.Response) : Prop :=
  (∃ msg, answered = ⟨.broker (.publish (execSubject (requestOf r lang)) msg), true⟩) ∨
    answered = ⟨.startReader fun msg => ⟨execSubject (requestOf r lang), msg⟩, ()⟩

/-- The calls of a handler: it hands its request over once, then subscribes to
its results, and ends only its own subscription. -/
def HandlerCalls (r : HttpRequest) (history : PlatformHistory) : PlatformCall → Prop
  | .broker (.publish subject _) =>
      (∀ answered ∈ history, ¬ HandsOver answered.1) ∧
        ∃ lang, subject = execSubject (requestOf r lang)
  | .startReader publishes =>
      (∀ answered ∈ history, ¬ HandsOver answered.1) ∧
        ∃ lang, publishes = fun msg => ⟨execSubject (requestOf r lang), msg⟩
  | .broker (.subscribe pattern _) =>
      ∃ lang, pattern = replySubject (requestOf r lang) ∧
        ∃ answered ∈ history, HandedOver r lang answered
  | .broker (.unsubscribe id) => ∃ pattern, SubscribedAs pattern id history
  | _ => True

section Handlers

variable {r : HttpRequest}

theorem activateFunction_calls (client : OperatorClient) (project name : String) :
    (activateFunction client project name).Along (HandlerCalls r)
      (fun after _ => ∀ answered ∈ after, ¬ HandsOver answered.1) [] := by
  cases client with
  | any =>
      apply And.intro trivial
      intro response
      simp [HandsOver]
  | deployed keepWarmDuration =>
      simp only [activateFunction, operate]
      have allowed : ∀ history call, HandlerCalls r history (.api call) := fun _ _ => trivial
      apply along_lift allowed (Operator.activate keepWarmDuration "default" name)
      intro embedded onlyApi _ answered member
      obtain ⟨call, callEq⟩ := onlyApi answered member
      simp [callEq, HandsOver]

theorem submitRequest_calls {history : PlatformHistory} (lang : String)
    (fresh : ∀ answered ∈ history, ¬ HandsOver answered.1) :
    (submitRequest r lang).Along (HandlerCalls r)
      (fun after result => ∀ req, result = .ok req →
        req = requestOf r lang ∧ ∃ answered ∈ after, HandedOver r lang answered) history := by
  simp only [submitRequest, submit_eq, along_bind]
  apply And.intro trivial
  intro response
  cases response with
  | none =>
      intro req isOk
      cases isOk
  | some body =>
      refine ⟨⟨?_, lang, rfl⟩, fun response => ?_⟩
      · intro answered member
        rcases List.mem_append.mp member with member | member
        · exact fresh answered member
        · rw [List.mem_singleton.mp member]
          exact id
      · cases response with
        | false =>
            intro req isOk
            cases isOk
        | true =>
            intro req isOk
            obtain rfl := Except.ok.inj isOk
            exact ⟨rfl, _, List.mem_append_right _ (List.mem_singleton_self _), .inl ⟨_, rfl⟩⟩

theorem produceRequest_calls {history : PlatformHistory} (lang : String)
    (fresh : ∀ answered ∈ history, ¬ HandsOver answered.1) :
    (produceRequest r lang).Along (HandlerCalls r)
      (fun after result => ∀ req, result = .ok req →
        req = requestOf r lang ∧ ∃ answered ∈ after, HandedOver r lang answered) history := by
  simp only [produceRequest, produce_eq, along_bind]
  apply And.intro trivial
  intro response
  cases response with
  | false =>
      intro req isOk
      cases isOk
  | true =>
      refine ⟨⟨?_, lang, rfl⟩, fun response => ?_⟩
      · intro answered member
        rcases List.mem_append.mp member with member | member
        · exact fresh answered member
        · rw [List.mem_singleton.mp member]
          exact id
      · intro req isOk
        obtain rfl := Except.ok.inj isOk
        exact ⟨rfl, _, List.mem_append_right _ (List.mem_singleton_self _), .inr rfl⟩

theorem passOn_calls (stopsOnError : Bool) (subscriber rounds : Nat) (history : PlatformHistory) :
    (passOn stopsOnError subscriber rounds).Along (HandlerCalls r) (fun _ _ => True) history := by
  induction rounds generalizing history with
  | zero => trivial
  | succ rounds ih =>
      simp only [passOn, along_bind]
      apply And.intro trivial
      intro response
      cases response with
      | none => trivial
      | some msg =>
          simp only [along_done, along_bind]
          apply And.intro trivial
          intro written
          simp only [along_done]
          split
          · trivial
          · exact ih _

theorem streamResults_calls {history : PlatformHistory} (stopsOnError : Bool) (lang : String)
    (rounds : Nat) (handedOver : ∃ answered ∈ history, HandedOver r lang answered) :
    (streamResults stopsOnError (requestOf r lang) rounds).Along (HandlerCalls r)
      (fun _ _ => True) history := by
  simp only [streamResults, subscribeSubject_eq, along_bind]
  refine ⟨⟨lang, rfl, handedOver⟩, fun response => ?_⟩
  cases response with
  | none => trivial
  | some subscriber =>
      simp only [along_done, along_bind]
      apply (passOn_calls stopsOnError subscriber rounds _).extends.imp (fun _ _ => id)
      rintro after - ⟨grown, -⟩
      refine ⟨⟨replySubject (requestOf r lang), some 32, ?_⟩, fun _ => trivial⟩
      exact grown.subset (List.mem_append_right _ (List.mem_singleton_self _))

theorem sync_calls (client : OperatorClient) :
    (sync client r).Along (HandlerCalls r) (fun _ _ => True) [] := by
  simp only [sync, along_bind]
  apply (activateFunction_calls client _ _).imp (fun _ _ => id)
  rintro after (err | info) fresh
  · trivial
  · simp only
    split
    · trivial
    · split
      · simp only [along_bind]
        apply (submitRequest_calls info.language fresh).imp (fun _ _ => id)
        rintro later (failure | req) - <;> trivial
      · split
        · apply And.intro trivial
          intro response
          cases response <;> trivial
        · simp only [along_bind]
          apply (submitRequest_calls info.language fresh).imp (fun _ _ => id)
          rintro later (failure | req) handed
          · trivial
          · obtain ⟨rfl, handedOver⟩ := handed req rfl
            simp only [reply, along_bind]
            refine ⟨⟨info.language, rfl, handedOver⟩, fun response => ?_⟩
            cases response with
            | none => trivial
            | some subscriber =>
                apply And.intro trivial
                intro response
                cases response <;> trivial

theorem sse_calls (client : OperatorClient) (rounds : Nat) :
    (sse client r rounds).Along (HandlerCalls r) (fun _ _ => True) [] := by
  simp only [sse, along_bind]
  apply (activateFunction_calls client _ _).imp (fun _ _ => id)
  rintro after (err | info) fresh
  · trivial
  · simp only
    split
    · trivial
    · simp only [along_bind]
      apply (submitRequest_calls info.language fresh).imp (fun _ _ => id)
      rintro later (failure | req) handed
      · trivial
      · obtain ⟨rfl, handedOver⟩ := handed req rfl
        exact streamResults_calls false info.language rounds handedOver

theorem ws_calls (client : OperatorClient) (rounds : Nat) :
    (ws client r rounds).Along (HandlerCalls r) (fun _ _ => True) [] := by
  simp only [ws, along_bind]
  apply (activateFunction_calls client _ _).imp (fun _ _ => id)
  rintro after (err | info) fresh
  · trivial
  · simp only
    split
    · trivial
    · simp only [along_bind]
      apply (produceRequest_calls info.language fresh).imp (fun _ _ => id)
      rintro later (failure | req) handed
      · trivial
      · obtain ⟨rfl, handedOver⟩ := handed req rfl
        exact streamResults_calls true info.language rounds handedOver

end Handlers

end Ingestor

namespace Runtimes

/-! ### Calls of the runtimes -/

/-- The calls of a process whose only subscription is on `subject`. -/
def SubscribesOnly (subject : String) (history : PlatformHistory) : PlatformCall → Prop
  | .broker (.subscribe pattern _) => pattern = subject
  | .broker (.unsubscribe id) => ∃ pattern, SubscribedAs pattern id history
  | _ => True

section Calls

variable {subject : String}

theorem publishEach_calls (outs : List Msg) (history : PlatformHistory) :
    (publishEach outs).Along (SubscribesOnly subject) (fun _ _ => True) history := by
  induction outs generalizing history with
  | nil => trivial
  | cons out outs ih => exact ⟨trivial, fun _ => ih _⟩

theorem publishUntilError_calls (outs : List Msg) (history : PlatformHistory) :
    (publishUntilError outs).Along (SubscribesOnly subject) (fun _ _ => True) history := by
  induction outs generalizing history with
  | nil => trivial
  | cons out outs ih =>
      apply And.intro trivial
      intro response
      cases response with
      | false => trivial
      | true => exact ih _

theorem handleMessage_calls (language : Language) (outs : List Msg) (history : PlatformHistory) :
    (handleMessage language outs).Along (SubscribesOnly subject) (fun _ _ => True) history := by
  cases language with
  | go => exact ⟨trivial, fun _ => trivial⟩
  | rust => exact publishUntilError_calls outs history
  | python | ts =>
      simp only [handleMessage, along_bind]
      exact (publishUntilError_calls outs history).imp (fun _ _ => id) fun _ _ _ => trivial
  | lua =>
      simp only [handleMessage, along_bind]
      exact (publishEach_calls outs history).imp (fun _ _ => id) fun _ _ _ => trivial

theorem consume_calls (language : Language) (consumer : Consumer)
    {next : PlatformProgram (Option Msg)} (waits : ∀ history,
      next.Along (SubscribesOnly subject) (fun _ _ => True) history)
    (rounds : Nat) (history : PlatformHistory) :
    (consume language consumer next rounds).Along (SubscribesOnly subject) (fun _ _ => True)
      history := by
  induction rounds generalizing history with
  | zero => trivial
  | succ rounds ih =>
      simp only [consume, along_bind]
      apply (waits history).imp (fun _ _ => id)
      rintro after (_ | msg) -
      · trivial
      · simp only [along_bind]
        apply (handleMessage_calls language _ after).imp (fun _ _ => id)
        rintro later (_ | _) -
        · trivial
        · exact ih later

theorem consumeSubscription_calls (language : Language) {consumer : Consumer}
    (subjectEq : consumer.subject = subject) (rounds : Nat) (history : PlatformHistory) :
    (consumeSubscription language consumer rounds).Along (SubscribesOnly subject)
      (fun _ _ => True) history := by
  simp only [consumeSubscription, along_bind]
  apply And.intro subjectEq
  intro response
  cases response with
  | none => trivial
  | some subscriber =>
      simp only [along_done, along_bind]
      refine (consume_calls language consumer ?_ rounds _).extends.imp (fun _ _ => id) ?_
      · exact fun _ => ⟨trivial, fun _ => trivial⟩
      · rintro after - ⟨grown, -⟩
        refine ⟨⟨consumer.subject, none, ?_⟩, fun _ => trivial⟩
        exact grown.subset (List.mem_append_right _ (List.mem_singleton_self _))

theorem runtime_calls (deployment : NamespacedName) (language : Language) (project name : String)
    (code : UserCode) (rounds : Nat) :
    (runtime deployment language project name code rounds).Along
      (SubscribesOnly (language.consumer project name code).subject) (fun _ _ => True) [] := by
  simp only [runtime, along_bind]
  apply And.intro trivial
  intro _
  simp only [along_done]
  cases language with
  | python =>
      simp only [startFunction, along_bind]
      apply And.intro trivial
      intro response
      cases response with
      | false => trivial
      | true =>
          simp only [along_done, along_bind, if_true]
          apply And.intro trivial
          intro response
          cases response with
          | none => trivial
          | some reader =>
              have waits : ∀ history, (fetch reader).Along
                  (SubscribesOnly (Language.python.consumer project name code).subject)
                  (fun _ _ => True) history :=
                fun _ => ⟨trivial, fun _ => trivial⟩
              exact consume_calls _ _ waits rounds _
  | ts =>
      simp only [startFunction, along_bind]
      apply And.intro trivial
      intro response
      cases response with
      | false => trivial
      | true => exact consumeSubscription_calls _ rfl rounds _
  | go | rust | lua => exact consumeSubscription_calls _ rfl rounds _

end Calls

end Runtimes

/-! ### Calls of all processes -/

namespace PlatformTask

open Runtimes

/-- What a process other than a handler subscribes to. -/
def subject : PlatformTask → String
  | runtime _ language project name code _ => (language.consumer project name code).subject
  | _ => ""

theorem readMessages_calls {subject : String} (publishes : Bytes → Msg) (rounds : Nat)
    (history : PlatformHistory) :
    (readMessages publishes rounds).Along (SubscribesOnly subject) (fun _ _ => True) history := by
  induction rounds generalizing history with
  | zero => trivial
  | succ rounds ih =>
      apply And.intro trivial
      intro response
      cases response with
      | none => trivial
      | some msg =>
          apply And.intro trivial
          intro response
          cases response with
          | false => trivial
          | true => exact ih _

theorem handler_calls {task : PlatformTask} {r : HttpRequest} (serves : task.request = some r) :
    task.program.Along (HandlerCalls r) (fun _ _ => True) [] := by
  cases task with
  | sync client served =>
      obtain rfl := Option.some.inj serves
      exact (sync_calls client).map _
  | sse client served rounds =>
      obtain rfl := Option.some.inj serves
      exact (sse_calls client rounds).map _
  | ws client served rounds =>
      obtain rfl := Option.some.inj serves
      exact (ws_calls client rounds).map _
  | _ => cases serves

theorem other_calls {task : PlatformTask} (servesNone : task.request = none) :
    task.program.Along (SubscribesOnly task.subject) (fun _ _ => True) [] := by
  cases task with
  | sync client r => cases servesNone
  | sse client r rounds => cases servesNone
  | ws client r rounds => cases servesNone
  | reader index rounds =>
      apply And.intro trivial
      intro publishes
      exact (readMessages_calls publishes rounds _).map _
  | runtime deployment language project name code rounds =>
      exact (runtime_calls deployment language project name code rounds).map _
  | worker index =>
      apply And.intro trivial
      intro outs
      exact (publishEach_calls outs _).map _
  | operator task =>
      simp only [program, operate, along_bind]
      exact along_lift (fun _ _ => trivial) _ fun _ _ _ => trivial

end PlatformTask

section Runs

variable [DecidableEq Pid] {platform : Platform} {tasks : Pid → PlatformTask}
variable {events : List (PlatformEvent Pid)}
variable {last : Processes Pid PlatformCall PlatformCall.Response PlatformOutcome Platform}

theorem platformRuns_run (platform : Platform) (tasks : Pid → PlatformTask)
    (schedule : List (Pid × PlatformCall.Circumstance)) :
    PlatformRuns platform tasks (platformEvents platform tasks schedule)
      (platformAfter platform tasks schedule) :=
  Processes.ran_run _ schedule

/-- No process ends the subscription of another. -/
theorem PlatformRuns.endOwn (ran : PlatformRuns platform tasks events last) : EndOwn events := by
  rintro early event late id rfl answeredEq
  have requestEq : event.request = .broker (.unsubscribe id) := congrArg Sigma.fst answeredEq
  cases serves : (tasks event.pid).request with
  | none =>
      have calls := ran.assertion (PlatformTask.other_calls serves)
      rwa [requestEq] at calls
  | some r =>
      have calls := ran.assertion (PlatformTask.handler_calls serves)
      rwa [requestEq] at calls

end Runs

end Litefunctions
