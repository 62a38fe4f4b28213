import Litefunctions.BrokerQueues
import Litefunctions.PlatformRuns

/-!
# Results that reach the clients

`SSE` and `WS` write to their client what they take from their subscription,
and `Sync` answers with the one message it takes.  So a client gets results of
its own request only, none of them twice and in the order of their publication,
and misses none in between as long as the channel of its handler has room.
-/

namespace Litefunctions

open PlatformCall Event Program

/-- The calls to the broker in a history. -/
def brokerCalls (history : PlatformHistory) : List (BrokerCall.Answered Msg) :=
  history.filterMap fun answered =>
    match answered with
    | ⟨broker inner, response⟩ => some ⟨inner, response⟩
    | _ => none

/-- What a history writes to the client. -/
def written (history : PlatformHistory) : List Bytes :=
  history.filterMap fun answered =>
    match answered with
    | ⟨writeMessage data, _⟩ => some data
    | _ => none

@[simp]
theorem brokerCalls_append (early late : PlatformHistory) :
    brokerCalls (early ++ late) = brokerCalls early ++ brokerCalls late :=
  List.filterMap_append

@[simp]
theorem written_append (early late : PlatformHistory) :
    written (early ++ late) = written early ++ written late :=
  List.filterMap_append

/-- The messages that a process takes from a subscription in a history. -/
def takenIn (id : Nat) (history : PlatformHistory) : List Msg :=
  BrokerCall.taken id (brokerCalls history)

@[simp]
theorem takenIn_append (id : Nat) (early late : PlatformHistory) :
    takenIn id (early ++ late) = takenIn id early ++ takenIn id late := by
  simp only [takenIn, brokerCalls_append, BrokerCall.taken_append]

variable {Pid : Type}

section Broker

variable [DecidableEq Pid] {Result : Type}
variable {first last : Processes Pid PlatformCall Response Result Platform}
variable {events : List (PlatformEvent Pid)}

/-- The calls of a run to the broker lead from its first to its last state. -/
theorem leads_run (ran : Processes.Ran execute first events last) :
    BrokerCall.Leads first.shared.broker (brokerCalls (events.map answered))
      last.shared.broker := by
  induction events generalizing first with
  | nil =>
      obtain rfl : first = last := ran
      rfl
  | cons event events ih =>
      obtain ⟨next, -, beforeEq, ⟨circumstance, executed⟩, rest⟩ := ran
      have later := ih rest
      obtain ⟨pid, request, response, before, after⟩ := event
      obtain rfl : before = first.shared := beforeEq
      by_cases isBroker : ∃ call, request = broker call
      · obtain ⟨call, rfl⟩ := isBroker
        exact ⟨circumstance.refused, after.broker, broker_of_execute executed, later⟩
      · have same : after.broker = first.shared.broker :=
          broker_eq_of_execute executed fun call equal => isBroker ⟨call, equal⟩
        have skipped : brokerCalls [⟨request, response⟩] = [] := by
          cases request with
          | broker call => exact absurd ⟨call, rfl⟩ isBroker
          | _ => rfl
        rw [List.map_cons, ← List.singleton_append, brokerCalls_append]
        simp only [answered, skipped, List.nil_append]
        rwa [← same]

/-- What nobody else takes is taken by the process itself. -/
theorem takenIn_own {pid : Pid} {id : Nat}
    (alone : ∀ event ∈ events, event.request = broker (.receive id) → event.pid = pid) :
    takenIn id (events.map answered) = takenIn id (own pid events) := by
  induction events with
  | nil => rfl
  | cons event events ih =>
      have rest := ih fun other member => alone other (List.mem_cons_of_mem _ member)
      by_cases isOwn : event.pid = pid
      · subst isOwn
        rw [own_cons_self, List.map_cons, ← List.singleton_append, takenIn_append, rest,
          ← takenIn_append, List.singleton_append]
      · have none : takenIn id [event.answered] = [] := by
          obtain ⟨other, request, response, before, after⟩ := event
          by_cases takes : request = broker (.receive id)
          · exact absurd (alone _ List.mem_cons_self takes) isOwn
          · cases request with
            | broker call =>
                cases call with
                | receive another =>
                    have different : another ≠ id := by
                      rintro rfl
                      exact takes rfl
                    cases response with
                    | none => rfl
                    | some message =>
                        simp [takenIn, brokerCalls, answered, BrokerCall.taken,
                          BrokerCall.takenFrom, different]
                | _ => rfl
            | _ => rfl
        rw [own_cons_other isOwn, List.map_cons, ← List.singleton_append, takenIn_append, none,
          List.nil_append, rest]

end Broker

/-! ### What the handlers pass on -/

/-- Receives are from a subscription that the process made. -/
def ReceivesOwn (history : PlatformHistory) : PlatformCall → Prop
  | .broker (.receive id) => ∃ pattern, SubscribedAs pattern id history
  | _ => True

/-- Calls that take nothing and write nothing. -/
def TakesNothing : PlatformCall → Prop
  | .broker (.receive _) => False
  | .writeMessage _ => False
  | _ => True

/-- The room of the channel or subscription of a handler. -/
def PlatformTask.room : PlatformTask → Option Nat
  | sync _ _ => none
  | _ => some 32

/-- The client gets what the handler took from one subscription. -/
def Relays (room : Option Nat) (history : PlatformHistory) (got : List Bytes) : Prop :=
  got = [] ∨ ∃ early pattern id late,
    history = early ++ ⟨.broker (.subscribe pattern room), some id⟩ :: late ∧
      got <+: (takenIn id late).map Msg.data

/-- The handler has passed on everything that it took from its subscription. -/
def Relaying (room : Option Nat) (subscriber : Nat) (history : PlatformHistory) : Prop :=
  ∃ early pattern late,
    history = early ++ ⟨.broker (.subscribe pattern room), some subscriber⟩ :: late ∧
      written history = (takenIn subscriber late).map Msg.data

section Relays

variable {room : Option Nat} {subscriber : Nat} {history : PlatformHistory} {got : List Bytes}

theorem written_quiet {call : PlatformCall} (quiet : TakesNothing call)
    (response : call.Response) : written [⟨call, response⟩] = [] := by
  cases call with
  | writeMessage data => exact quiet.elim
  | _ => rfl

theorem receivesOwn_of_quiet {call : PlatformCall} (quiet : TakesNothing call) :
    ReceivesOwn history call := by
  cases call with
  | broker inner =>
      cases inner with
      | receive other => exact quiet.elim
      | _ => trivial
  | _ => trivial

theorem Relays.snoc (relays : Relays room history got)
    (answered : Answered PlatformCall Response) : Relays room (history ++ [answered]) got := by
  rcases relays with nothing | ⟨early, pattern, id, late, rfl, passed⟩
  · exact .inl nothing
  · refine .inr ⟨early, pattern, id, late ++ [answered], by simp, ?_⟩
    rw [takenIn_append, List.map_append]
    exact passed.trans (List.prefix_append _ _)

theorem Relaying.relays (relaying : Relaying room subscriber history) :
    Relays room history (written history) := by
  obtain ⟨early, pattern, late, split, passed⟩ := relaying
  exact .inr ⟨early, pattern, subscriber, late, split, passed ▸ List.prefix_refl _⟩

theorem Relaying.subscribedAs (relaying : Relaying room subscriber history) :
    ∃ pattern, SubscribedAs pattern subscriber history := by
  obtain ⟨early, pattern, late, rfl, -⟩ := relaying
  exact ⟨pattern, room, by simp⟩

/-- The handler takes one message and passes it on. -/
theorem Relaying.pass (relaying : Relaying room subscriber history) (msg : Msg) (success : Bool) :
    Relays room (history ++ [⟨.broker (.receive subscriber), some msg⟩])
        (written (history ++ [⟨.broker (.receive subscriber), some msg⟩])) ∧
      Relaying room subscriber (history ++ [⟨.broker (.receive subscriber), some msg⟩] ++
        [⟨.writeMessage msg.data, success⟩]) := by
  have writtenOne : written [⟨.broker (.receive subscriber), some msg⟩] = [] := rfl
  have takenOne : takenIn subscriber [⟨.broker (.receive subscriber), some msg⟩] = [msg] := by
    simp [takenIn, brokerCalls, BrokerCall.taken, BrokerCall.takenFrom]
  have writtenTwo : written [⟨.writeMessage msg.data, success⟩] = [msg.data] := rfl
  have takenTwo : takenIn subscriber [⟨.writeMessage msg.data, success⟩] = [] := rfl
  constructor
  · rw [written_append, writtenOne, List.append_nil]
    exact relaying.relays.snoc _
  · obtain ⟨early, pattern, late, rfl, passed⟩ := relaying
    refine ⟨early, pattern, late ++ [⟨.broker (.receive subscriber), some msg⟩] ++
      [⟨.writeMessage msg.data, success⟩], by simp, ?_⟩
    rw [written_append, written_append, passed, writtenOne, writtenTwo]
    simp only [takenIn_append, takenOne, takenTwo, List.append_nil, List.map_append,
      List.map_cons, List.map_nil]

end Relays

/-- At each call the client got only what the handler took, and the handler
takes from its own subscription only. -/
def RelayCalls (room : Option Nat) (history : PlatformHistory) (call : PlatformCall) : Prop :=
  Relays room history (written history) ∧ ReceivesOwn history call

/-- The texts of a reply. -/
def Ingestor.Answer.replied : Ingestor.Answer → List Bytes
  | .reply res => [res]
  | _ => []

def PlatformOutcome.replied : PlatformOutcome → List Bytes
  | .answered answer => answer.replied
  | _ => []

/-- What the client got of a handler that has answered. -/
def RelayAnswer (room : Option Nat) (history : PlatformHistory) (answer : Ingestor.Answer) :
    Prop :=
  Relays room history (written history ++ answer.replied)

section Along

variable {room : Option Nat} {history : PlatformHistory} {Result : Type}

/-- A program of the operator makes calls to the API server only. -/
theorem operate_makes {quiet : PlatformCall → Prop} (api : ∀ request, quiet (.api request))
    (program : ApiProgram Result) : (Platform.operate program).Makes quiet := by
  induction program with
  | done result => trivial
  | call request next ih => exact ⟨api request, fun response => ih response⟩

/-- A part of a handler that takes nothing. -/
theorem relay_of_makes {program : PlatformProgram Result} (makes : program.Makes TakesNothing)
    (nothing : written history = []) :
    program.Along (RelayCalls room) (fun after _ => written after = []) history := by
  induction program generalizing history with
  | done result => exact nothing
  | call request next ih =>
      refine ⟨⟨.inl nothing, receivesOwn_of_quiet makes.1⟩, fun response => ?_⟩
      apply ih response (makes.2 response)
      rw [written_append, nothing, written_quiet makes.1, List.nil_append]

end Along

namespace Ingestor

variable {r : HttpRequest} {room : Option Nat} {history : PlatformHistory}

theorem activateFunction_quiet (client : OperatorClient) (project name : String) :
    (activateFunction client project name).Makes TakesNothing := by
  cases client with
  | any => exact ⟨trivial, fun _ => trivial⟩
  | deployed keepWarmDuration =>
      exact operate_makes (fun _ => trivial) (Operator.activate keepWarmDuration "default" name)

theorem submitRequest_quiet (r : HttpRequest) (lang : String) :
    (submitRequest r lang).Makes TakesNothing := by
  apply And.intro trivial
  intro response
  cases response with
  | none => trivial
  | some body =>
      apply And.intro trivial
      intro response
      cases response <;> trivial

theorem produceRequest_quiet (r : HttpRequest) (lang : String) :
    (produceRequest r lang).Makes TakesNothing := by
  apply And.intro trivial
  intro response
  cases response with
  | false => trivial
  | true => exact ⟨trivial, fun _ => trivial⟩

theorem passOn_relay {subscriber : Nat} (stopsOnError : Bool) (rounds : Nat)
    (relaying : Relaying room subscriber history) :
    (passOn stopsOnError subscriber rounds).Along (RelayCalls room)
      (fun after _ => Relays room after (written after)) history := by
  induction rounds generalizing history with
  | zero => exact relaying.relays
  | succ rounds ih =>
      simp only [passOn, along_bind]
      refine ⟨⟨relaying.relays, relaying.subscribedAs⟩, fun response => ?_⟩
      cases response with
      | none =>
          have same : written (history ++ [⟨.broker (.receive subscriber), none⟩]) =
              written history := by
            rw [written_append]
            exact List.append_nil _
          simp only [pure_eq_done, along_done, same]
          exact relaying.relays.snoc _
      | some msg =>
          simp only [along_done, along_bind]
          refine ⟨⟨(relaying.pass msg true).1, trivial⟩, fun success => ?_⟩
          have passed := (relaying.pass msg success).2
          simp only [along_done]
          split
          · exact passed.relays
          · exact ih passed

theorem streamResults_relay (stopsOnError : Bool) (req : Req) (rounds : Nat)
    (nothing : written history = []) :
    (streamResults stopsOnError req rounds).Along (RelayCalls (some 32)) (RelayAnswer (some 32))
      history := by
  simp only [streamResults, along_bind]
  refine ⟨⟨.inl nothing, trivial⟩, fun response => ?_⟩
  cases response with
  | none =>
      left
      rw [written_append, nothing]
      rfl
  | some subscriber =>
      have relaying : Relaying (some 32) subscriber (history ++
          [⟨.broker (.subscribe (subscribeSubject req) (some 32)), some subscriber⟩]) := by
        refine ⟨history, subscribeSubject req, [], rfl, ?_⟩
        rw [written_append, nothing]
        rfl
      simp only [along_done, along_bind]
      apply (passOn_relay stopsOnError rounds relaying).imp (fun _ _ => id)
      rintro after - relays
      refine ⟨⟨relays, trivial⟩, fun response => ?_⟩
      have same : written (after ++ [⟨.broker (.unsubscribe subscriber), response⟩]) ++
          Answer.streamed.replied = written after := by
        rw [written_append]
        exact (List.append_nil _).trans (List.append_nil _)
      simp only [pure_eq_done, along_done, RelayAnswer, same]
      exact relays.snoc _

theorem reply_relay (req : Req) (nothing : written history = []) :
    (reply req).Along (RelayCalls none)
      (fun after res => Relays none after (written after ++
        match res with
        | .ok res => [res]
        | .error _ => [])) history := by
  simp only [reply, along_bind]
  refine ⟨⟨.inl nothing, trivial⟩, fun response => ?_⟩
  cases response with
  | none =>
      left
      rw [written_append, nothing]
      rfl
  | some subscriber =>
      have still : written (history ++
          [⟨.broker (.subscribe (replySubject req) none), some subscriber⟩]) = [] := by
        rw [written_append, nothing]
        rfl
      refine ⟨⟨.inl still, replySubject req, none, by simp⟩, fun response => ?_⟩
      cases response with
      | none =>
          left
          rw [written_append, still]
          rfl
      | some msg =>
          refine .inr ⟨history, replySubject req, subscriber, _, List.append_assoc _ _ _, ?_⟩
          rw [written_append, still]
          simp [written, takenIn, brokerCalls, BrokerCall.taken, BrokerCall.takenFrom]

theorem relayAnswer_of_nothing {answer : Answer} (nothing : written history = [])
    (noReply : answer.replied = []) : RelayAnswer room history answer := by
  left
  rw [nothing, noReply]
  rfl

theorem sync_relay (client : OperatorClient) (r : HttpRequest) :
    (sync client r).Along (RelayCalls none) (RelayAnswer none) [] := by
  simp only [sync, along_bind]
  apply (relay_of_makes (activateFunction_quiet client _ _) rfl).imp (fun _ _ => id)
  rintro after (err | info) nothing
  · exact relayAnswer_of_nothing nothing rfl
  · simp only
    split
    · exact relayAnswer_of_nothing nothing rfl
    · split
      · simp only [along_bind]
        apply (relay_of_makes (submitRequest_quiet r info.language) nothing).imp (fun _ _ => id)
        rintro later (failure | req) nothing
        · exact relayAnswer_of_nothing nothing rfl
        · exact relayAnswer_of_nothing nothing rfl
      · split
        · refine ⟨⟨.inl nothing, trivial⟩, fun response => ?_⟩
          have still : written (after ++ [⟨.proxy (proxyToRuntime r (parsePath r.path).1
              (parsePath r.path).2 "default" info.serviceName info.servicePort), response⟩]) =
              [] := by
            rw [written_append, nothing]
            rfl
          cases response with
          | false => exact relayAnswer_of_nothing still rfl
          | true => exact relayAnswer_of_nothing still rfl
        · simp only [along_bind]
          apply (relay_of_makes (submitRequest_quiet r info.language) nothing).imp (fun _ _ => id)
          rintro later (failure | req) nothing
          · exact relayAnswer_of_nothing nothing rfl
          · simp only [along_bind]
            apply (reply_relay req nothing).imp (fun _ _ => id)
            rintro final (failure | res) relays
            · exact relays
            · exact relays

theorem sse_relay (client : OperatorClient) (r : HttpRequest) (rounds : Nat) :
    (sse client r rounds).Along (RelayCalls (some 32)) (RelayAnswer (some 32)) [] := by
  simp only [sse, along_bind]
  apply (relay_of_makes (activateFunction_quiet client _ _) rfl).imp (fun _ _ => id)
  rintro after (err | info) nothing
  · exact relayAnswer_of_nothing nothing rfl
  · simp only
    split
    · exact relayAnswer_of_nothing nothing rfl
    · simp only [along_bind]
      apply (relay_of_makes (submitRequest_quiet r info.language) nothing).imp (fun _ _ => id)
      rintro later (failure | req) nothing
      · exact relayAnswer_of_nothing nothing rfl
      · exact streamResults_relay false req rounds nothing

theorem ws_relay (client : OperatorClient) (r : HttpRequest) (rounds : Nat) :
    (ws client r rounds).Along (RelayCalls (some 32)) (RelayAnswer (some 32)) [] := by
  simp only [ws, along_bind]
  apply (relay_of_makes (activateFunction_quiet client _ _) rfl).imp (fun _ _ => id)
  rintro after (err | info) nothing
  · exact relayAnswer_of_nothing nothing rfl
  · simp only
    split
    · exact relayAnswer_of_nothing nothing rfl
    · simp only [along_bind]
      apply (relay_of_makes (produceRequest_quiet r info.language) nothing).imp (fun _ _ => id)
      rintro later (failure | req) nothing
      · exact relayAnswer_of_nothing nothing rfl
      · exact streamResults_relay true req rounds nothing

end Ingestor

/-! ### Nobody takes from the subscription of another process -/

/-- Receives are from this subscription, if from any. -/
def ReceivesFrom (subscriber : Option Nat) : PlatformCall → Prop
  | .broker (.receive id) => subscriber = some id
  | _ => True

/-- The subscription, if any, was made in these calls. -/
def MadeIn (subscriber : Option Nat) (history : PlatformHistory) : Prop :=
  ∀ id, subscriber = some id → ∃ pattern, SubscribedAs pattern id history

theorem receivesOwn_of_receivesFrom {history : PlatformHistory} {subscriber : Option Nat}
    {request : PlatformCall} (receives : ReceivesFrom subscriber request)
    (made : MadeIn subscriber history) :
    ReceivesOwn history request := by
  cases request with
  | broker inner =>
      cases inner with
      | receive id => exact made id receives
      | _ => trivial
  | _ => trivial

theorem MadeIn.mono {subscriber : Option Nat} {early late : PlatformHistory}
    (grown : early <+: late) (made : MadeIn subscriber early) : MadeIn subscriber late := by
  intro id isSubscriber
  obtain ⟨pattern, madeEarly⟩ := made id isSubscriber
  exact ⟨pattern, madeEarly.mono grown.subset⟩

/-- A program that takes from a subscription made before. -/
theorem receivesOwn_of_makes {Result : Type} {program : PlatformProgram Result}
    {subscriber : Option Nat} {history : PlatformHistory}
    (makes : program.Makes (ReceivesFrom subscriber)) (made : MadeIn subscriber history) :
    program.Along ReceivesOwn (fun _ _ => True) history := by
  apply ((makes.along history).with_past made MadeIn.mono).imp
  · intro before request calls
    exact receivesOwn_of_receivesFrom calls.1 calls.2
  · intro _ _ _
    trivial

theorem receivesOwn_of_none {Result : Type} {program : PlatformProgram Result}
    {history : PlatformHistory} (makes : program.Makes (ReceivesFrom none)) :
    program.Along ReceivesOwn (fun _ _ => True) history := by
  apply receivesOwn_of_makes makes
  intro id isSubscriber
  cases isSubscriber

theorem readMessages_receives {subscriber : Option Nat} (publishes : Bytes → Msg) (rounds : Nat) :
    (Ingestor.readMessages publishes rounds).Makes (ReceivesFrom subscriber) := by
  induction rounds with
  | zero => trivial
  | succ rounds ih =>
      apply And.intro trivial
      intro response
      cases response with
      | none => trivial
      | some msg =>
          apply And.intro trivial
          intro success
          cases success with
          | false => trivial
          | true => exact ih

namespace Runtimes

variable {subscriber : Option Nat}

theorem publishEach_makes {quiet : PlatformCall → Prop} {outs : List Msg}
    (publishes : ∀ out ∈ outs, quiet (.broker (.publish out.subject out))) :
    (publishEach outs).Makes quiet := by
  induction outs with
  | nil => trivial
  | cons out outs ih =>
      apply And.intro (publishes out List.mem_cons_self)
      intro _
      exact ih fun other member => publishes other (List.mem_cons_of_mem _ member)

theorem publishUntilError_makes {quiet : PlatformCall → Prop} {outs : List Msg}
    (publishes : ∀ out ∈ outs, quiet (.broker (.publish out.subject out))) :
    (publishUntilError outs).Makes quiet := by
  induction outs with
  | nil => trivial
  | cons out outs ih =>
      apply And.intro (publishes out List.mem_cons_self)
      intro response
      cases response with
      | false => trivial
      | true => exact ih fun other member => publishes other (List.mem_cons_of_mem _ member)

/-- A runtime publishes the outputs for a message or hands them to a goroutine. -/
theorem handleMessage_makes {quiet : PlatformCall → Prop} (language : Language) {outs : List Msg}
    (publishes : ∀ out ∈ outs, quiet (.broker (.publish out.subject out)))
    (starts : quiet (.startWorker outs)) : (handleMessage language outs).Makes quiet := by
  cases language with
  | go => exact ⟨starts, fun _ => trivial⟩
  | rust => exact publishUntilError_makes publishes
  | python | ts => exact (publishUntilError_makes publishes).bind fun _ => trivial
  | lua => exact (publishEach_makes publishes).bind fun _ => trivial

theorem consume_receives (language : Language) (consumer : Consumer)
    {next : PlatformProgram (Option Msg)} (waits : next.Makes (ReceivesFrom subscriber))
    (rounds : Nat) :
    (consume language consumer next rounds).Makes (ReceivesFrom subscriber) := by
  induction rounds with
  | zero => trivial
  | succ rounds ih =>
      apply waits.bind
      intro msg
      cases msg with
      | none => trivial
      | some msg =>
          apply (handleMessage_makes language (fun _ _ => trivial) trivial).bind
          intro goesOn
          cases goesOn with
          | false => trivial
          | true => exact ih

theorem consumeSubscription_receives (language : Language) (consumer : Consumer) (rounds : Nat)
    (history : PlatformHistory) :
    (consumeSubscription language consumer rounds).Along ReceivesOwn (fun _ _ => True) history := by
  simp only [consumeSubscription, along_bind]
  apply And.intro trivial
  intro response
  cases response with
  | none => trivial
  | some subscriber =>
      have waits : (Platform.receive subscriber).Makes (ReceivesFrom (some subscriber)) :=
        ⟨rfl, fun _ => trivial⟩
      have consumes : (do
          consume language consumer (Platform.receive subscriber) rounds
          Platform.unsubscribe subscriber).Makes (ReceivesFrom (some subscriber)) :=
        (consume_receives language consumer waits rounds).bind fun _ => ⟨trivial, fun _ => trivial⟩
      apply receivesOwn_of_makes consumes
      intro id same
      obtain rfl := Option.some.inj same
      exact ⟨consumer.subject, none, by simp⟩

theorem runtime_receives (deployment : NamespacedName) (language : Language)
    (project name : String) (code : UserCode) (rounds : Nat) :
    (runtime deployment language project name code rounds).Along ReceivesOwn (fun _ _ => True)
      [] := by
  simp only [runtime, along_bind]
  apply And.intro trivial
  intro _
  simp only [along_done]
  cases language with
  | python =>
      simp only [startFunction, along_bind]
      apply And.intro trivial
      intro response
      cases response with
      | false => trivial
      | true =>
          simp only [along_done, along_bind, if_true]
          apply And.intro trivial
          intro response
          cases response with
          | none => trivial
          | some reader =>
              have waits : (Platform.fetch reader).Makes (ReceivesFrom none) :=
                ⟨trivial, fun _ => trivial⟩
              exact receivesOwn_of_none (consume_receives _ _ waits rounds)
  | ts =>
      simp only [startFunction, along_bind]
      apply And.intro trivial
      intro response
      cases response with
      | false => trivial
      | true => exact consumeSubscription_receives _ _ rounds _
  | go | rust | lua => exact consumeSubscription_receives _ _ rounds _

end Runtimes

namespace PlatformTask

/-- What the client of a handler got when the handler has ended. -/
def RelayOutcome (room : Option Nat) (history : PlatformHistory) (outcome : PlatformOutcome) :
    Prop :=
  Relays room history (written history ++ outcome.replied)

theorem handler_relay {task : PlatformTask} {r : Ingestor.HttpRequest}
    (serves : task.request = some r) :
    task.program.Along (RelayCalls task.room) (RelayOutcome task.room) [] := by
  have answers : ∀ {room : Option Nat} {program : PlatformProgram Ingestor.Answer},
      program.Along (RelayCalls room) (RelayAnswer room) [] →
      (program >>= fun answer => Program.done (PlatformOutcome.answered answer)).Along
        (RelayCalls room) (RelayOutcome room) [] := by
    intro room program along
    apply along_bind.mpr
    exact along.imp (fun _ _ => id) fun _ _ relays => relays
  cases task with
  | sync client served => exact answers (Ingestor.sync_relay client served)
  | sse client served rounds => exact answers (Ingestor.sse_relay client served rounds)
  | ws client served rounds => exact answers (Ingestor.ws_relay client served rounds)
  | _ => cases serves

theorem receivesOwn (task : PlatformTask) :
    task.program.Along ReceivesOwn (fun _ _ => True) [] := by
  cases serves : task.request with
  | some r => exact (handler_relay serves).imp (fun _ _ => And.right) fun _ _ _ => trivial
  | none =>
      cases task with
      | sync client r => cases serves
      | sse client r rounds => cases serves
      | ws client r rounds => cases serves
      | reader index rounds =>
          apply receivesOwn_of_none
          apply And.intro trivial
          intro publishes
          exact (readMessages_receives publishes rounds).bind fun _ => trivial
      | runtime deployment language project name code rounds =>
          exact (Runtimes.runtime_receives deployment language project name code rounds).map _
      | worker index =>
          apply receivesOwn_of_none
          apply And.intro trivial
          intro outs
          exact (Runtimes.publishEach_makes fun _ _ => trivial).bind fun _ => trivial
      | operator task =>
          apply receivesOwn_of_none
          exact (operate_makes (fun _ => trivial) task.program).bind fun _ => trivial

end PlatformTask

/-! ### Runs -/

section Runs

open Ingestor

variable [DecidableEq Pid]

/-- What the client of a process got: what was written to it, and the reply of
a handler that has ended. -/
def clientGets (pid : Pid) (events : List (PlatformEvent Pid))
    (last : Processes Pid PlatformCall Response PlatformOutcome Platform) : List Bytes :=
  written (own pid events) ++
    match last.program pid with
    | .done outcome => outcome.replied
    | .call _ _ => []

/-- The data of the messages that these events publish to a subject. -/
def results (subject : String) (events : List (PlatformEvent Pid)) : List Bytes :=
  (BrokerCall.published subject (brokerCalls (events.map answered))).map Msg.data

/-- Clients get results of their own request, published after their handler
subscribed to them; in the order of publication, none twice, and none missing
in between unless there are more than the channel of the handler holds. -/
def GetsOnlyResults (tasks : Pid → PlatformTask) (events : List (PlatformEvent Pid))
    (last : Processes Pid PlatformCall Response PlatformOutcome Platform) : Prop :=
  ∀ pid r, (tasks pid).request = some r → clientGets pid events last ≠ [] →
    ∃ early event late lang id, events = early ++ event :: late ∧ event.pid = pid ∧
      event.answered = ⟨.broker (.subscribe (replySubject (requestOf r lang)) (tasks pid).room),
        some id⟩ ∧
      (∃ answered ∈ own pid early, HandedOver r lang answered) ∧
      (clientGets pid events last).Sublist (results (replySubject (requestOf r lang)) late) ∧
      ((∀ room, (tasks pid).room = some room →
          (results (replySubject (requestOf r lang)) late).length ≤ room) →
        clientGets pid events last <+: results (replySubject (requestOf r lang)) late)

variable {platform : Platform} {tasks : Pid → PlatformTask}
variable {events early late : List (PlatformEvent Pid)} {event : PlatformEvent Pid}
variable {last : Processes Pid PlatformCall Response PlatformOutcome Platform}
variable {pid : Pid} {r : HttpRequest}

theorem PlatformRuns.relays (ran : PlatformRuns platform tasks events last)
    (serves : (tasks pid).request = some r) :
    Relays (tasks pid).room (own pid events) (clientGets pid events last) := by
  have reached := (PlatformTask.handler_relay serves).of_reaches (ran.reaches pid)
  rw [List.nil_append] at reached
  unfold clientGets
  cases there : last.program pid with
  | done outcome =>
      rw [there] at reached
      exact reached
  | call request next =>
      rw [there] at reached
      rw [List.append_nil]
      exact reached.1.1

/-- Nobody else takes from a subscription that a process made. -/
theorem PlatformRuns.takenIn_eq
    (ran : PlatformRuns platform tasks (early ++ event :: late) last) {pattern : String}
    {room : Option Nat} {id : Nat}
    (subscribes : event.answered = ⟨.broker (.subscribe pattern room), some id⟩) :
    takenIn id (late.map answered) = takenIn id (own event.pid late) := by
  apply takenIn_own
  intro other member receives
  obtain ⟨before, after, rfl⟩ := List.append_of_mem member
  have made : SubscribedAs pattern id
      (own event.pid (early ++ event :: (before ++ other :: after))) :=
    ⟨room, mem_own.mpr ⟨event, by simp, rfl, subscribes⟩⟩
  have split : early ++ event :: (before ++ other :: after) =
      (early ++ event :: before) ++ other :: after := by
    simp
  rw [split] at ran made
  have calls := ran.assertion (tasks other.pid).receivesOwn
  rw [receives] at calls
  obtain ⟨another, madeByOther⟩ := calls
  have grown : SubscribedAs another id
      (own other.pid ((early ++ event :: before) ++ other :: after)) := by
    apply madeByOther.mono
    rw [own_append other.pid (early ++ event :: before)]
    exact List.subset_append_left _ _
  exact ((accounted_run ran ran.endOwn).unique _ _ _ _ _ grown made).1

/-- The events after a subscription start from the broker that has it. -/
theorem PlatformRuns.leads_after
    (ran : PlatformRuns platform tasks (early ++ event :: late) last) {pattern : String}
    {room : Option Nat} {id : Nat}
    (subscribes : event.answered = ⟨.broker (.subscribe pattern room), some id⟩) :
    id = event.before.broker.nextId ∧
      BrokerCall.Leads (event.before.broker.subscribe pattern room).2
        (brokerCalls (late.map answered)) last.shared.broker := by
  obtain ⟨circumstance, executed⟩ := ran.executed_of_answered_eq (by simp) subscribes
  have brokerExecuted := broker_of_execute executed
  obtain ⟨middle, -, next, -, -, -, rest⟩ := Processes.ran_append.mp ran
  have leads := leads_run rest
  simp only [BrokerCall.execute] at brokerExecuted
  split at brokerExecuted
  · simp at brokerExecuted
  · obtain ⟨idEq, afterEq⟩ := Prod.mk.inj (Option.some.inj brokerExecuted)
    apply And.intro (Option.some.inj idEq).symm
    rw [afterEq]
    exact leads

theorem PlatformRuns.getsResults (ran : PlatformRuns platform tasks events last) :
    GetsOnlyResults tasks events last := by
  intro pid r serves nonempty
  rcases ran.relays serves with nothing | ⟨ownEarly, pattern, id, ownLate, ownEq, passed⟩
  · exact absurd nothing nonempty
  · obtain ⟨early, event, late, rfl, rfl, subscribes, rfl, rfl⟩ := exists_split_of_own_eq ownEq
    have calls := ran.assertion (PlatformTask.handler_calls serves)
    rw [show event.request = .broker (.subscribe pattern _) from congrArg Sigma.fst subscribes]
      at calls
    obtain ⟨lang, rfl, handedOver⟩ := calls
    obtain ⟨rfl, leads⟩ := ran.leads_after subscribes
    rw [← ran.takenIn_eq subscribes] at passed
    refine ⟨early, event, late, lang, _, rfl, rfl, subscribes, handedOver, ?_, ?_⟩
    · exact passed.sublist.trans ((BrokerCall.taken_sublist leads).map Msg.data)
    · intro fits
      apply passed.trans ((BrokerCall.taken_prefix leads _).map Msg.data)
      intro room isRoom
      have bound := fits room isRoom
      rwa [results, List.length_map] at bound

/-- In every run of the platform clients get results of their own requests
only. -/
theorem getsOnlyResults (platform : Platform) (tasks : Pid → PlatformTask)
    (schedule : List (Pid × PlatformCall.Circumstance)) :
    GetsOnlyResults tasks (platformEvents platform tasks schedule)
      (platformAfter platform tasks schedule) :=
  (platformRuns_run platform tasks schedule).getsResults

end Runs

end Litefunctions
