import Litefunctions.PlatformRuns
import Litefunctions.RuntimeDeletions

/-!
# Delivery of replies

The broker hands an output only to the subscriptions that exist when it is
published.  `Sync`, `SSE` and `WS` hand their request over first and subscribe
to its results afterwards, so an output reaches them exactly if it is published
while they hold their subscription.
-/

namespace Litefunctions

open Event Program Ingestor

variable {Pid : Type} [DecidableEq Pid]

/-- A process that runs the code of functions publishes an output for the
request. -/
def IsOutput (tasks : Pid → PlatformTask) (req : Req) (event : PlatformEvent Pid) (out : Msg) :
    Prop :=
  (tasks event.pid).publishesOutputs = true ∧
    event.answered = ⟨.broker (.publish (replySubject req) out), true⟩

/-- The broker hands the message to a subscription that the process makes at
some time of the run. -/
def DeliveredTo (pid : Pid) (events : List (PlatformEvent Pid)) (event : PlatformEvent Pid)
    (msg : Msg) : Prop :=
  ∃ pattern id, SubscribedAs pattern id (own pid events) ∧
    event.after.broker.received id = event.before.broker.received id ++ [msg]

/-- The handler waits for results of the broker: it has handed its request
over and did not answer at once that it accepts it. -/
def AwaitsResults
    (last : Processes Pid PlatformCall PlatformCall.Response PlatformOutcome Platform)
    (events : List (PlatformEvent Pid)) (pid : Pid) (r : HttpRequest) (lang : String) : Prop :=
  (∃ answered ∈ own pid events, HandedOver r lang answered) ∧
    last.program pid ≠ .done (.answered .accepted)

/-- Every output for the request of a handler is delivered to the handler. -/
def OutputsDelivered (tasks : Pid → PlatformTask) (events : List (PlatformEvent Pid))
    (last : Processes Pid PlatformCall PlatformCall.Response PlatformOutcome Platform) : Prop :=
  ∀ pid r lang, (tasks pid).request = some r → AwaitsResults last events pid r lang →
    ∀ early event late out, events = early ++ event :: late →
      IsOutput tasks (requestOf r lang) event out → DeliveredTo pid events event out

/-- The handler holds a subscription to the results of its request. -/
def Listens (r : HttpRequest) (lang : String) (history : PlatformHistory) : Prop :=
  ∃ id, Holds (replySubject (requestOf r lang)) id history

/-- Outputs for the request of a handler are published only while the handler
listens. -/
def PublishedWhileListening (tasks : Pid → PlatformTask) (events : List (PlatformEvent Pid))
    (last : Processes Pid PlatformCall PlatformCall.Response PlatformOutcome Platform) : Prop :=
  ∀ pid r lang, (tasks pid).request = some r → AwaitsResults last events pid r lang →
    ∀ early event late out, events = early ++ event :: late →
      IsOutput tasks (requestOf r lang) event out → Listens r lang (own pid early)

namespace Ingestor

variable {r : HttpRequest} {lang other : String}

theorem execSubject_injective
    (equal : execSubject (requestOf r lang) = execSubject (requestOf r other)) : lang = other := by
  have lists := congrArg String.toList equal
  simp only [execSubject, requestOf, toString, String.toList_append, List.append_assoc,
    List.append_cancel_left_eq] at lists
  exact String.ext (List.append_cancel_right lists)

theorem HandedOver.handsOver {answered : Answered PlatformCall PlatformCall.Response}
    (handedOver : HandedOver r lang answered) : HandsOver answered.1 := by
  rcases handedOver with ⟨msg, rfl⟩ | rfl <;> trivial

theorem HandedOver.lang_eq {answered : Answered PlatformCall PlatformCall.Response}
    (first : HandedOver r lang answered) (second : HandedOver r other answered) :
    lang = other := by
  rcases first with ⟨msg, rfl⟩ | rfl
  · rcases second with ⟨another, equal⟩ | equal
    · have calls := PlatformCall.broker.inj (congrArg Sigma.fst equal)
      exact execSubject_injective (BrokerCall.publish.inj calls).1
    · exact absurd (congrArg Sigma.fst equal) PlatformCall.noConfusion
  · rcases second with ⟨another, equal⟩ | equal
    · exact absurd (congrArg Sigma.fst equal) PlatformCall.noConfusion
    · have publishes := PlatformCall.startReader.inj (congrArg Sigma.fst equal)
      have subjects := congrArg Msg.subject (congrFun publishes [])
      simp only at subjects
      exact execSubject_injective subjects

theorem HandlerCalls.none_before {history : PlatformHistory} {call : PlatformCall}
    (calls : HandlerCalls r history call) (hands : HandsOver call) :
    ∀ answered ∈ history, ¬ HandsOver answered.1 := by
  unfold HandsOver at hands
  split at hands
  · exact calls.1
  · exact calls.1
  · exact hands.elim

end Ingestor

variable {tasks : Pid → PlatformTask} {platform : Platform}
variable {events early late : List (PlatformEvent Pid)} {event : PlatformEvent Pid}
variable {last : Processes Pid PlatformCall PlatformCall.Response PlatformOutcome Platform}
variable {pid : Pid} {r : HttpRequest} {lang other : String}

/-- A handler hands its request over under one language. -/
theorem PlatformRuns.handedOver_unique (ran : PlatformRuns platform tasks events last)
    (serves : (tasks pid).request = some r)
    {first second : Answered PlatformCall PlatformCall.Response}
    (member : first ∈ own pid events) (otherMember : second ∈ own pid events)
    (handedOver : HandedOver r lang first) (otherHandedOver : HandedOver r other second) :
    lang = other := by
  have same : first = second :=
    ran.eq_of_once (PlatformTask.handler_calls serves)
      (fun _ _ calls hands => calls.none_before hands) member otherMember
      handedOver.handsOver otherHandedOver.handsOver
  subst same
  exact handedOver.lang_eq otherHandedOver

/-- The subscriptions of a handler are on the results of its request. -/
theorem PlatformRuns.pattern_eq (ran : PlatformRuns platform tasks events last)
    (serves : (tasks pid).request = some r)
    (awaits : ∃ answered ∈ own pid events, HandedOver r lang answered)
    {pattern : String} {id : Nat} (made : SubscribedAs pattern id (own pid events)) :
    pattern = replySubject (requestOf r lang) := by
  obtain ⟨capacity, member⟩ := made
  obtain ⟨history, rest, ownEq⟩ := List.append_of_mem member
  obtain ⟨other, patternEq, second, earlier, otherHandedOver⟩ :=
    ran.assertion_of_own_eq (PlatformTask.handler_calls serves) ownEq
  obtain ⟨first, member, handedOver⟩ := awaits
  have laterMember : second ∈ own pid events := by
    rw [ownEq]
    exact List.mem_append_left _ earlier
  rw [patternEq, ran.handedOver_unique serves member laterMember handedOver otherHandedOver]

/-- An output is delivered to a handler exactly if the handler listens. -/
theorem PlatformRuns.deliveredTo_iff
    (ran : PlatformRuns platform tasks (early ++ event :: late) last)
    (serves : (tasks pid).request = some r)
    (awaits : ∃ answered ∈ own pid (early ++ event :: late), HandedOver r lang answered)
    {out : Msg} (isOutput : IsOutput tasks (requestOf r lang) event out) :
    DeliveredTo pid (early ++ event :: late) event out ↔ Listens r lang (own pid early) := by
  have earlier : own pid early ⊆ own pid (early ++ event :: late) := by
    rw [own_append]
    exact List.subset_append_left _ _
  constructor
  · rintro ⟨pattern, id, made, received⟩
    obtain ⟨another, holds, -⟩ := (received_iff ran ran.endOwn made isOutput.2).mp received
    obtain rfl := ran.pattern_eq serves awaits (holds.1.mono earlier)
    exact ⟨id, holds⟩
  · rintro ⟨id, holds⟩
    have made := holds.1.mono earlier
    refine ⟨_, id, made, (received_iff ran ran.endOwn made isOutput.2).mpr ?_⟩
    exact ⟨_, holds, Subject.matchesPattern_self _⟩

/-- In every run of the platform, every output reaches the handler of its
request exactly when all outputs are published while the handler listens. -/
theorem outputsDelivered_iff (platform : Platform) (tasks : Pid → PlatformTask)
    (schedule : List (Pid × PlatformCall.Circumstance)) :
    OutputsDelivered tasks (platformEvents platform tasks schedule)
        (platformAfter platform tasks schedule) ↔
      PublishedWhileListening tasks (platformEvents platform tasks schedule)
        (platformAfter platform tasks schedule) := by
  have ran : PlatformRuns platform tasks _ _ := platformRuns_run platform tasks schedule
  constructor
  · intro delivered pid r lang serves awaits early event late out split isOutput
    have here := delivered pid r lang serves awaits early event late out split isOutput
    rw [split] at ran here awaits
    exact (ran.deliveredTo_iff serves awaits.1 isOutput).mp here
  · intro listening pid r lang serves awaits early event late out split isOutput
    have here := listening pid r lang serves awaits early event late out split isOutput
    rw [split] at ran awaits ⊢
    exact (ran.deliveredTo_iff serves awaits.1 isOutput).mpr here

/-! ### An answer before the subscription -/

/-- The active Go function with its Deployment, and a fresh broker. -/
def goPlatform : Platform where
  cluster := Operator.goCluster
  broker := .empty
  readers := []
  workers := []

def streamedRequest : HttpRequest where
  path := "/lambda/sse/projone/one"
  method := "GET"
  draws _ := ⟨0, Ingestor.letterBytes_pos⟩

/-- A streamed request, the runtime of its function and the goroutine that
handles its message. -/
def streamAndRuntime : Nat → PlatformTask
  | 0 => .sse (.deployed (5 * minute)) streamedRequest 1
  | 1 => .runtime ⟨"default", "litefunctions-runtime-go-projone-one"⟩ .go "projone" "one"
      echoCode 1
  | _ => .worker 0

/-- The runtime answers between the two steps of the handler that publish the
request and subscribe to its results. -/
def earlyAnswer : List (Nat × PlatformCall.Circumstance) :=
  [1, 1, 0, 0, 0, 0, 0, 1, 1, 2, 2, 0].map fun pid => (pid, { data := [123, 125] })

private def isSubscribe : PlatformCall → Bool
  | .broker (.subscribe _ _) => true
  | _ => false

private def isDone : PlatformProgram PlatformOutcome → Bool
  | .done _ => true
  | .call _ _ => false

private theorem not_listens {history : PlatformHistory}
    (none : (history.all fun answered => !isSubscribe answered.1) = true) (r : HttpRequest)
    (lang : String) : ¬ Listens r lang history := by
  rintro ⟨id, ⟨capacity, member⟩, -⟩
  have notSubscribe := List.all_eq_true.mp none _ member
  simp [isSubscribe] at notSubscribe

/-- The answer is lost. -/
theorem early_answer_lost :
    ¬ OutputsDelivered streamAndRuntime (platformEvents goPlatform streamAndRuntime earlyAnswer)
      (platformAfter goPlatform streamAndRuntime earlyAnswer) := by
  intro delivered
  have listening := (outputsDelivered_iff goPlatform streamAndRuntime earlyAnswer).mp delivered
  have handedOver : (own 0 (platformEvents goPlatform streamAndRuntime earlyAnswer))[4]? =
      some ⟨.broker (.publish "projone.one.exec.go.aaaaaaaa"
        ⟨"projone.one.exec.go.aaaaaaaa", [123, 125]⟩), true⟩ := by
    rfl
  have awaits : AwaitsResults (platformAfter goPlatform streamAndRuntime earlyAnswer)
      (platformEvents goPlatform streamAndRuntime earlyAnswer) 0 streamedRequest "go" := by
    refine ⟨⟨_, List.mem_of_getElem? handedOver, .inl ⟨_, rfl⟩⟩, fun accepted => ?_⟩
    have goesOn : isDone ((platformAfter goPlatform streamAndRuntime earlyAnswer).program 0) =
        false := by
      decide +kernel
    simp [accepted, isDone] at goesOn
  have published : (platformEvents goPlatform streamAndRuntime earlyAnswer)[10]?.map
      (fun event => (event.pid, event.answered)) =
      some (2, ⟨.broker (.publish "projone.one.res.go.aaaaaaaa"
        ⟨"projone.one.res.go.aaaaaaaa", [123, 125]⟩), true⟩) := by
    rfl
  obtain ⟨event, split, pidEq, answeredEq⟩ := exists_split_of_getElem? published
  refine not_listens (by decide +kernel) streamedRequest "go"
    (listening 0 streamedRequest "go" rfl awaits _ event _ _ split ⟨?_, answeredEq⟩)
  rw [pidEq]
  rfl

end Litefunctions
