import Litefunctions.RelayedResults
import Litefunctions.ReplyDelivery
import Litefunctions.SubjectOwners

/-!
# Where results come from

Every message on the broker is a request that a handler published under its
own path and id, or an output that the code of a function returned for a
message on the subject of that function.  So what a client gets was returned by
the code of the function that it asked for, for a body of a request with the
same id.
-/

namespace Litefunctions

open PlatformCall Event Program Ingestor Runtimes Subject SeparatedText

variable {Pid : Type}

/-- A platform on which nothing has happened at the broker. -/
structure Platform.Fresh (platform : Platform) : Prop where
  broker : platform.broker = .empty
  readers : platform.readers = []
  workers : platform.workers = []

/-! ### What the processes publish -/

/-- A message that was taken from a subscription or a stream of the subject. -/
inductive Took (subject : String) (history : PlatformHistory) (msg : Msg) : Prop
  | received (early late : PlatformHistory) (room : Option Nat) (id : Nat)
      (opened : history = early ++ ⟨.broker (.subscribe subject room), some id⟩ :: late)
      (takes : ⟨.broker (.receive id), some msg⟩ ∈ late)
  | fetched (early late : PlatformHistory) (stream : String) (id : Nat)
      (opened : history = early ++ ⟨.broker (.pullSubscribe stream subject), some id⟩ :: late)
      (takes : ⟨.broker (.fetch id), some msg⟩ ∈ late)

theorem Took.mono {subject : String} {early late : PlatformHistory} {msg : Msg}
    (grown : early <+: late) (took : Took subject early msg) : Took subject late msg := by
  obtain ⟨more, rfl⟩ := grown
  cases took with
  | received first rest room id opened takes =>
      subst opened
      exact .received first (rest ++ more) room id (by simp) (List.mem_append_left _ takes)
  | fetched first rest stream id opened takes =>
      subst opened
      exact .fetched first (rest ++ more) stream id (by simp) (List.mem_append_left _ takes)

/-- What a process may publish, leave to a goroutine of the Go runtime to
publish, or let a reader make of the messages of its client. -/
structure Publications where
  publishes : PlatformHistory → Msg → Prop
  starts : PlatformHistory → List Msg → Prop
  reads : (Bytes → Msg) → Prop

def PublishCalls (allowed : Publications) (history : PlatformHistory) : PlatformCall → Prop
  | .broker (.publish subject msg) => msg.subject = subject ∧ allowed.publishes history msg
  | .startWorker outs => allowed.starts history outs
  | .startReader publishes => allowed.reads publishes
  | _ => True

namespace Ingestor

variable {r : HttpRequest}

/-- The messages of a request. -/
def IsRequest (r : HttpRequest) (msg : Msg) : Prop :=
  ∃ lang, msg.subject = execSubject (requestOf r lang)

/-- A handler publishes messages of its request only. -/
def requestMessages (r : HttpRequest) : Publications where
  publishes _ := IsRequest r
  starts _ _ := False
  reads publishes := ∀ data, IsRequest r (publishes data)

/-- Calls that publish messages of one request only. -/
def PublishesRequest (r : HttpRequest) : PlatformCall → Prop
  | .broker (.publish subject msg) => msg.subject = subject ∧ IsRequest r msg
  | .startWorker _ => False
  | .startReader publishes => ∀ data, IsRequest r (publishes data)
  | _ => True

theorem publishCalls_of_makes {Result : Type} {program : PlatformProgram Result}
    (makes : program.Makes (PublishesRequest r)) :
    program.Along (PublishCalls (requestMessages r)) (fun _ _ => True) [] := by
  apply (makes.along []).imp
  · intro before request calls
    cases request with
    | broker inner =>
        cases inner with
        | publish subject msg => exact calls
        | _ => trivial
    | startReader publishes => exact calls
    | startWorker outs => exact calls
    | _ => trivial
  · exact fun _ _ => id

theorem activateFunction_publishes (client : OperatorClient) (project name : String) :
    (activateFunction client project name).Makes (PublishesRequest r) := by
  cases client with
  | any => exact ⟨trivial, fun _ => trivial⟩
  | deployed keepWarmDuration =>
      exact operate_makes (fun _ => trivial) (Operator.activate keepWarmDuration "default" name)

theorem submitRequest_publishes (lang : String) :
    (submitRequest r lang).Makes (PublishesRequest r) := by
  simp only [submitRequest, submit_eq]
  apply And.intro trivial
  intro response
  cases response with
  | none => trivial
  | some body =>
      apply And.intro ⟨rfl, lang, rfl⟩
      intro response
      cases response <;> trivial

theorem produceRequest_publishes (lang : String) :
    (produceRequest r lang).Makes (PublishesRequest r) := by
  simp only [produceRequest, produce_eq]
  apply And.intro trivial
  intro response
  cases response with
  | false => trivial
  | true => exact ⟨fun _ => ⟨lang, rfl⟩, fun _ => trivial⟩

theorem passOn_publishes (stopsOnError : Bool) (subscriber rounds : Nat) :
    (passOn stopsOnError subscriber rounds).Makes (PublishesRequest r) := by
  induction rounds with
  | zero => trivial
  | succ rounds ih =>
      apply And.intro trivial
      intro response
      cases response with
      | none => trivial
      | some msg =>
          apply And.intro trivial
          intro success
          simp only
          show Makes _ (if stopsOnError ∧ !success then (pure () : PlatformProgram Unit)
            else passOn stopsOnError subscriber rounds)
          split
          · trivial
          · exact ih

theorem streamResults_publishes (stopsOnError : Bool) (req : Req) (rounds : Nat) :
    (streamResults stopsOnError req rounds).Makes (PublishesRequest r) := by
  apply And.intro trivial
  intro response
  cases response with
  | none => trivial
  | some subscriber =>
      exact (passOn_publishes stopsOnError subscriber rounds).bind fun _ =>
        ⟨trivial, fun _ => trivial⟩

theorem reply_publishes (req : Req) : (reply req).Makes (PublishesRequest r) := by
  apply And.intro trivial
  intro response
  cases response with
  | none => trivial
  | some subscriber =>
      apply And.intro trivial
      intro response
      cases response <;> trivial

theorem sync_publishes (client : OperatorClient) :
    (sync client r).Makes (PublishesRequest r) := by
  apply (activateFunction_publishes client _ _).bind
  rintro (err | info)
  · trivial
  · simp only
    split
    · trivial
    · split
      · apply (submitRequest_publishes info.language).bind
        rintro (failure | req) <;> trivial
      · split
        · apply And.intro trivial
          intro response
          cases response <;> trivial
        · apply (submitRequest_publishes info.language).bind
          rintro (failure | req)
          · trivial
          · apply (reply_publishes req).bind
            rintro (failure | res) <;> trivial

theorem sse_publishes (client : OperatorClient) (rounds : Nat) :
    (sse client r rounds).Makes (PublishesRequest r) := by
  apply (activateFunction_publishes client _ _).bind
  rintro (err | info)
  · trivial
  · simp only
    split
    · trivial
    · apply (submitRequest_publishes info.language).bind
      rintro (failure | req)
      · trivial
      · exact streamResults_publishes false req rounds

theorem ws_publishes (client : OperatorClient) (rounds : Nat) :
    (ws client r rounds).Makes (PublishesRequest r) := by
  apply (activateFunction_publishes client _ _).bind
  rintro (err | info)
  · trivial
  · simp only
    split
    · trivial
    · apply (produceRequest_publishes info.language).bind
      rintro (failure | req)
      · trivial
      · exact streamResults_publishes true req rounds

end Ingestor

/-- The messages that a reader makes of what its client sends. -/
def IsRead (history : PlatformHistory) (msg : Msg) : Prop :=
  ∃ index publishes data, ⟨.awaitReader index, publishes⟩ ∈ history ∧ msg = publishes data

/-- The messages that a goroutine of the Go runtime was started with. -/
def IsHandedOut (history : PlatformHistory) (msg : Msg) : Prop :=
  ∃ index outs, ⟨.awaitWorker index, outs⟩ ∈ history ∧ msg ∈ outs

/-- The outputs for the messages that a consumer took. -/
def IsOutputOf (consumer : Consumer) (history : PlatformHistory) (msg : Msg) : Prop :=
  ∃ taken, Took consumer.subject history taken ∧ msg ∈ consumer.handle taken

def AreOutputsOf (consumer : Consumer) (history : PlatformHistory) (outs : List Msg) : Prop :=
  ∃ taken, Took consumer.subject history taken ∧ outs = consumer.handle taken

section Goroutines

/-- A reader publishes what it makes of the messages of its client. -/
def readMessages : Publications := ⟨IsRead, fun _ _ => False, fun _ => False⟩

/-- A goroutine of the Go runtime publishes what it was started with. -/
def handedOutMessages : Publications := ⟨IsHandedOut, fun _ _ => False, fun _ => False⟩

theorem reader_publishes (index rounds : Nat) :
    (PlatformTask.reader index rounds).program.Along (PublishCalls readMessages)
      (fun _ _ => True) [] := by
  apply And.intro trivial
  intro publishes
  have sends : ∀ history : PlatformHistory, ⟨.awaitReader index, publishes⟩ ∈ history →
      (Ingestor.readMessages publishes rounds).Along (PublishCalls readMessages)
        (fun _ _ => True) history := by
    induction rounds with
    | zero => exact fun _ _ => trivial
    | succ rounds ih =>
        intro history known
        apply And.intro trivial
        intro response
        cases response with
        | none => trivial
        | some data =>
            have still : ⟨.awaitReader index, publishes⟩ ∈
                history ++ [⟨.readMessage, some data⟩] :=
              List.mem_append_left _ known
            apply And.intro ⟨rfl, index, publishes, data, still, rfl⟩
            intro success
            cases success with
            | false => trivial
            | true => exact ih _ (List.mem_append_left _ still)
  exact (sends _ List.mem_cons_self).map _

/-- What a program calls that publishes these messages, each on its subject, and
starts no goroutines but these. -/
def HandsOut (outs : List Msg) (starts : List Msg → Prop) : PlatformCall → Prop
  | .broker (.publish subject msg) => msg.subject = subject ∧ msg ∈ outs
  | .startReader _ => False
  | .startWorker started => starts started
  | _ => True

/-- What is handed out is published if the messages, and what is started, are
allowed. -/
theorem HandsOut.publishCalls {outs : List Msg} {starts : List Msg → Prop} {allowed : Publications}
    {history : PlatformHistory} {request : PlatformCall} (handsOut : HandsOut outs starts request)
    (publishes : ∀ msg ∈ outs, allowed.publishes history msg)
    (mayStart : ∀ started, starts started → allowed.starts history started) :
    PublishCalls allowed history request := by
  cases request with
  | broker inner =>
      cases inner with
      | publish subject msg => exact ⟨handsOut.1, publishes msg handsOut.2⟩
      | _ => trivial
  | startReader publishes => exact handsOut.elim
  | startWorker started => exact mayStart started handsOut
  | _ => trivial

theorem worker_publishes (index : Nat) :
    (PlatformTask.worker index).program.Along (PublishCalls handedOutMessages)
      (fun _ _ => True) [] := by
  apply And.intro trivial
  intro outs
  have makes : (publishEach outs).Makes (HandsOut outs fun _ => False) :=
    publishEach_makes fun out member => ⟨rfl, member⟩
  have known : ⟨.awaitWorker index, outs⟩ ∈
      ([] : PlatformHistory) ++ [⟨.awaitWorker index, outs⟩] :=
    List.mem_singleton_self _
  apply Along.map
  apply ((makes.along _).with_past known fun grown member => grown.subset member).imp
  · rintro before request ⟨calls, started⟩
    exact calls.publishCalls (fun _ member => ⟨index, outs, started, member⟩) fun _ => False.elim
  · exact fun _ _ _ => trivial

end Goroutines

namespace Runtimes

variable {consumer : Consumer}

/-- A consumer publishes outputs for messages that it took. -/
def outputMessages (consumer : Consumer) : Publications where
  publishes := IsOutputOf consumer
  starts := AreOutputsOf consumer
  reads _ := False

/-- A consumer that took a message publishes its outputs. -/
theorem handleMessage_publishes (language : Language) {history : PlatformHistory} {taken : Msg}
    (took : Took consumer.subject history taken) :
    (handleMessage language (consumer.handle taken)).Along
      (PublishCalls (outputMessages consumer))
      (fun after _ => history <+: after) history := by
  have makes : (handleMessage language (consumer.handle taken)).Makes
      (HandsOut (consumer.handle taken) (· = consumer.handle taken)) :=
    handleMessage_makes language (fun out member => ⟨rfl, member⟩) rfl
  have along := ((makes.along history).with_past took Took.mono).extends
  apply along.imp
  · rintro before request ⟨calls, known⟩
    exact calls.publishCalls (fun _ member => ⟨taken, known, member⟩) fun _ same =>
      ⟨taken, known, same⟩
  · rintro after result ⟨grown, -⟩
    exact grown

/-- The call that opened a source stands in a history. -/
def OpenedBy (source : Answered PlatformCall Response) (history : PlatformHistory) : Prop :=
  ∃ early late, history = early ++ source :: late

theorem OpenedBy.mono {source : Answered PlatformCall Response} {early late : PlatformHistory}
    (grown : early <+: late) (isOpen : OpenedBy source early) : OpenedBy source late := by
  obtain ⟨more, rfl⟩ := grown
  obtain ⟨first, rest, rfl⟩ := isOpen
  exact ⟨first, rest ++ more, by simp⟩

theorem consume_publishes (language : Language) {next : PlatformProgram (Option Msg)}
    {source : Answered PlatformCall Response}
    (waits : ∀ history, OpenedBy source history → next.Along
      (PublishCalls (outputMessages consumer))
      (fun after msg => OpenedBy source after ∧ ∀ taken, msg = some taken →
        Took consumer.subject after taken) history)
    (rounds : Nat) (history : PlatformHistory) (isOpen : OpenedBy source history) :
    (consume language consumer next rounds).Along
      (PublishCalls (outputMessages consumer)) (fun _ _ => True) history := by
  induction rounds generalizing history with
  | zero => trivial
  | succ rounds ih =>
      simp only [consume, along_bind]
      apply (waits history isOpen).imp (fun _ _ => id)
      rintro after (_ | taken) ⟨stillOpen, took⟩
      · trivial
      · simp only [along_bind]
        apply (handleMessage_publishes language (took taken rfl)).imp (fun _ _ => id)
        rintro later (_ | _) grown
        · trivial
        · exact ih later (stillOpen.mono grown)

theorem consumeSubscription_publishes (language : Language) (rounds : Nat)
    (history : PlatformHistory) :
    (consumeSubscription language consumer rounds).Along
      (PublishCalls (outputMessages consumer)) (fun _ _ => True) history := by
  simp only [consumeSubscription, along_bind]
  apply And.intro trivial
  intro response
  cases response with
  | none => trivial
  | some subscriber =>
      have waits : ∀ before : PlatformHistory,
          OpenedBy ⟨.broker (.subscribe consumer.subject none), some subscriber⟩ before →
          (Platform.receive subscriber).Along
            (PublishCalls (outputMessages consumer))
            (fun after msg =>
              OpenedBy ⟨.broker (.subscribe consumer.subject none), some subscriber⟩ after ∧
                ∀ taken, msg = some taken → Took consumer.subject after taken) before := by
        rintro before ⟨early, late, rfl⟩
        apply And.intro trivial
        intro msg
        refine ⟨⟨early, late ++ [⟨.broker (.receive subscriber), msg⟩], by simp⟩, ?_⟩
        rintro taken rfl
        exact .received early (late ++ [⟨.broker (.receive subscriber), some taken⟩]) none
          subscriber (by simp) (by simp)
      have consumes := consume_publishes language waits rounds _ ⟨history, [], rfl⟩
      simp only [along_done, along_bind]
      exact consumes.imp (fun _ _ => id) fun _ _ _ => ⟨trivial, fun _ => trivial⟩

theorem consumeStream_publishes (language : Language) (stream : String) (reader rounds : Nat)
    (history : PlatformHistory) :
    (consume language consumer (Platform.fetch reader) rounds).Along
      (PublishCalls (outputMessages consumer)) (fun _ _ => True)
      (history ++ [⟨.broker (.pullSubscribe stream consumer.subject), some reader⟩]) := by
  have waits : ∀ before : PlatformHistory,
      OpenedBy ⟨.broker (.pullSubscribe stream consumer.subject), some reader⟩ before →
      (Platform.fetch reader).Along (PublishCalls (outputMessages consumer))
        (fun after msg =>
          OpenedBy ⟨.broker (.pullSubscribe stream consumer.subject), some reader⟩ after ∧
            ∀ taken, msg = some taken → Took consumer.subject after taken) before := by
    rintro before ⟨early, late, rfl⟩
    apply And.intro trivial
    intro msg
    refine ⟨⟨early, late ++ [⟨.broker (.fetch reader), msg⟩], by simp⟩, ?_⟩
    rintro taken rfl
    exact .fetched early (late ++ [⟨.broker (.fetch reader), some taken⟩]) stream reader
      (by simp) (by simp)
  exact consume_publishes language waits rounds _ ⟨history, [], rfl⟩

theorem runtime_publishes (deployment : NamespacedName) (language : Language)
    (project name : String) (code : UserCode) (rounds : Nat) :
    (runtime deployment language project name code rounds).Along
      (PublishCalls (outputMessages (language.consumer project name code)))
      (fun _ _ => True) [] := by
  simp only [runtime, along_bind]
  apply And.intro trivial
  intro _
  simp only [along_done]
  cases language with
  | python =>
      simp only [startFunction, along_bind]
      apply And.intro trivial
      intro response
      cases response with
      | false => trivial
      | true =>
          simp only [along_done, along_bind, if_true]
          apply And.intro trivial
          intro response
          cases response with
          | none => trivial
          | some reader => exact consumeStream_publishes .python project reader rounds _
  | ts =>
      simp only [startFunction, along_bind]
      apply And.intro trivial
      intro response
      cases response with
      | false => trivial
      | true => exact consumeSubscription_publishes .ts rounds _
  | go => exact consumeSubscription_publishes .go rounds _
  | rust => exact consumeSubscription_publishes .rust rounds _
  | lua => exact consumeSubscription_publishes .lua rounds _

end Runtimes

namespace PlatformTask

def publications : PlatformTask → Publications
  | sync _ r => requestMessages r
  | sse _ r _ => requestMessages r
  | ws _ r _ => requestMessages r
  | reader _ _ => readMessages
  | runtime _ language project name code _ => outputMessages (language.consumer project name code)
  | worker _ => handedOutMessages
  | operator _ => ⟨fun _ _ => False, fun _ _ => False, fun _ => False⟩

theorem publishes (task : PlatformTask) :
    task.program.Along (PublishCalls task.publications) (fun _ _ => True) [] := by
  cases task with
  | sync client r => exact (publishCalls_of_makes (sync_publishes client)).map _
  | sse client r rounds => exact (publishCalls_of_makes (sse_publishes client rounds)).map _
  | ws client r rounds => exact (publishCalls_of_makes (ws_publishes client rounds)).map _
  | reader index rounds => exact reader_publishes index rounds
  | runtime deployment language project name code rounds =>
      exact (runtime_publishes deployment language project name code rounds).map _
  | worker index => exact worker_publishes index
  | operator task =>
      simp only [program, Platform.operate, along_bind]
      exact along_lift (fun _ _ => trivial) _ fun _ _ _ => trivial

end PlatformTask

/-! ### Messages of a run -/

section Runs

variable {platform : Platform} {tasks : Pid → PlatformTask}
variable {events early late : List (PlatformEvent Pid)} {event : PlatformEvent Pid}
variable {pid : Pid} {msg : Msg} {subject : String}

/-- The message was published in these events. -/
def PublishedIn (events : List (PlatformEvent Pid)) (msg : Msg) : Prop :=
  ∃ event ∈ events, event.answered = ⟨.broker (.publish msg.subject msg), true⟩

theorem PublishedIn.mono {more : List (PlatformEvent Pid)} (subset : events ⊆ more)
    (published : PublishedIn events msg) : PublishedIn more msg := by
  obtain ⟨event, member, answeredEq⟩ := published
  exact ⟨event, subset member, answeredEq⟩

theorem published_mono {more : List (PlatformEvent Pid)} (subset : events ⊆ more)
    (published : msg ∈ BrokerCall.published subject (brokerCalls (events.map answered))) :
    msg ∈ BrokerCall.published subject (brokerCalls (more.map answered)) :=
  List.filterMap_subset _ (List.filterMap_subset _ (List.map_subset _ subset)) published

/-- A process serves a request that the message belongs to. -/
def IsRequested (tasks : Pid → PlatformTask) (msg : Msg) : Prop :=
  ∃ pid r, (tasks pid).request = some r ∧ IsRequest r msg

/-- A runtime serves a function whose code returned the message for a published
message on the subject of the function. -/
def IsReturned (tasks : Pid → PlatformTask) (events : List (PlatformEvent Pid)) (msg : Msg) :
    Prop :=
  ∃ pid deployment language project name code rounds taken,
    tasks pid = .runtime deployment language project name code rounds ∧
      PublishedIn events taken ∧
      matchesPattern (language.consumer project name code).subject taken.subject = true ∧
      msg ∈ (language.consumer project name code).handle taken

theorem IsReturned.mono {more : List (PlatformEvent Pid)} (subset : events ⊆ more)
    (returned : IsReturned tasks events msg) : IsReturned tasks more msg := by
  obtain ⟨pid, deployment, language, project, name, code, rounds, taken, runs, published, rest⟩ :=
    returned
  exact ⟨pid, deployment, language, project, name, code, rounds, taken, runs,
    published.mono subset, rest⟩

/-- Goroutines that were started in these events. -/
structure Started (events : List (PlatformEvent Pid)) (platform : Platform) : Prop where
  workers : ∀ outs ∈ platform.workers, ∃ event ∈ events, event.request = .startWorker outs
  readers : ∀ publishes ∈ platform.readers, ∃ event ∈ events,
    event.request = .startReader publishes

/-- Only the calls that start goroutines add any. -/
theorem goroutines_of_execute {request : PlatformCall} {circumstance : Circumstance}
    {before after : Platform} {response : request.Response}
    (executed : request.execute circumstance before = some (response, after)) :
    (after.workers = before.workers ∨
      ∃ outs, request = .startWorker outs ∧ after.workers = before.workers ++ [outs]) ∧
    (after.readers = before.readers ∨
      ∃ publishes, request = .startReader publishes ∧
        after.readers = before.readers ++ [publishes]) := by
  cases request with
  | startReader publishes =>
      obtain ⟨-, rfl⟩ := Prod.mk.inj (Option.some.inj executed)
      exact ⟨.inl rfl, .inr ⟨publishes, rfl, rfl⟩⟩
  | startWorker outs =>
      obtain ⟨-, rfl⟩ := Prod.mk.inj (Option.some.inj executed)
      exact ⟨.inr ⟨outs, rfl, rfl⟩, .inl rfl⟩
  | broker call =>
      simp only [execute] at executed
      split at executed
      · cases executed
      · obtain ⟨-, rfl⟩ := Prod.mk.inj (Option.some.inj executed)
        exact ⟨.inl rfl, .inl rfl⟩
  | awaitReader index =>
      obtain ⟨_, _, same⟩ := Option.map_eq_some_iff.mp executed
      obtain ⟨-, rfl⟩ := Prod.mk.inj same
      exact ⟨.inl rfl, .inl rfl⟩
  | awaitWorker index =>
      obtain ⟨_, _, same⟩ := Option.map_eq_some_iff.mp executed
      obtain ⟨-, rfl⟩ := Prod.mk.inj same
      exact ⟨.inl rfl, .inl rfl⟩
  | awaitDeployment key =>
      obtain ⟨_, _, same⟩ := Option.map_eq_some_iff.mp executed
      obtain ⟨-, rfl⟩ := Prod.mk.inj same
      exact ⟨.inl rfl, .inl rfl⟩
  | _ =>
      obtain ⟨-, rfl⟩ := Prod.mk.inj (Option.some.inj executed)
      exact ⟨.inl rfl, .inl rfl⟩

theorem Started.step {circumstance : Circumstance} (started : Started events event.before)
    (executed : event.request.execute circumstance event.before =
      some (event.response, event.after)) : Started (events ++ [event]) event.after := by
  obtain ⟨workers, readers⟩ := goroutines_of_execute executed
  constructor
  · intro outs member
    rcases workers with same | ⟨added, requestEq, grown⟩
    · obtain ⟨other, otherMember, otherEq⟩ := started.workers outs (same ▸ member)
      exact ⟨other, List.mem_append_left _ otherMember, otherEq⟩
    · rw [grown] at member
      rcases List.mem_append.mp member with member | member
      · obtain ⟨other, otherMember, otherEq⟩ := started.workers outs member
        exact ⟨other, List.mem_append_left _ otherMember, otherEq⟩
      · obtain rfl := List.mem_singleton.mp member
        exact ⟨event, List.mem_append_right _ (List.mem_singleton_self _), requestEq⟩
  · intro publishes member
    rcases readers with same | ⟨added, requestEq, grown⟩
    · obtain ⟨other, otherMember, otherEq⟩ := started.readers publishes (same ▸ member)
      exact ⟨other, List.mem_append_left _ otherMember, otherEq⟩
    · rw [grown] at member
      rcases List.mem_append.mp member with member | member
      · obtain ⟨other, otherMember, otherEq⟩ := started.readers publishes member
        exact ⟨other, List.mem_append_left _ otherMember, otherEq⟩
      · obtain rfl := List.mem_singleton.mp member
        exact ⟨event, List.mem_append_right _ (List.mem_singleton_self _), requestEq⟩

variable [DecidableEq Pid]
variable {last : Processes Pid PlatformCall Response PlatformOutcome Platform}

theorem PlatformRuns.started (ran : PlatformRuns platform tasks events last)
    (fresh : platform.Fresh) : Started events last.shared := by
  rw [ran.lastShared]
  apply ran.linked.run_induction
  · constructor
    · intro outs member
      simp [startPlatform, fresh.workers] at member
    · intro publishes member
      simp [startPlatform, fresh.readers] at member
  · rintro early event late rfl started
    have member : event ∈ early ++ event :: late := by
      simp
    obtain ⟨circumstance, executed⟩ := ran.executed member
    exact started.step executed

/-- The calls of a process to publish, at each of its events. -/
theorem PlatformRuns.publishes
    (ran : PlatformRuns platform tasks (early ++ event :: late) last) :
    PublishCalls (tasks event.pid).publications (own event.pid early) event.request :=
  ran.assertion (tasks event.pid).publishes

/-- A message is published on the subject that it carries. -/
theorem PlatformRuns.publishedIn (ran : PlatformRuns platform tasks events last)
    (published : msg ∈ BrokerCall.published subject (brokerCalls (events.map answered))) :
    PublishedIn events msg ∧ matchesPattern subject msg.subject = true := by
  obtain ⟨carried, member, isMatch⟩ := BrokerCall.mem_published_iff.mp published
  obtain ⟨⟨request, response⟩, answeredMember, found⟩ := List.mem_filterMap.mp member
  obtain ⟨event, eventMember, answeredEq⟩ := List.mem_map.mp answeredMember
  cases request with
  | broker inner =>
      obtain ⟨rfl, sameResponse⟩ := Sigma.mk.inj (Option.some.inj found)
      obtain rfl := eq_of_heq sameResponse
      obtain ⟨early, late, rfl⟩ := List.append_of_mem eventMember
      have calls := ran.publishes
      rw [show event.request = .broker (.publish carried msg) from congrArg Sigma.fst answeredEq]
        at calls
      obtain rfl : msg.subject = carried := calls.1
      exact ⟨⟨event, eventMember, answeredEq⟩, isMatch⟩
  | _ => cases found

theorem mem_takenIn {history : PlatformHistory} {id : Nat}
    (takes : ⟨.broker (.receive id), some msg⟩ ∈ history) : msg ∈ takenIn id history := by
  obtain ⟨early, late, rfl⟩ := List.append_of_mem takes
  rw [takenIn_append, ← List.singleton_append, takenIn_append]
  simp [takenIn, brokerCalls, BrokerCall.taken, BrokerCall.takenFrom]

theorem own_subset (pid : Pid) (events : List (PlatformEvent Pid)) :
    own pid events ⊆ events.map answered :=
  List.map_subset _ (List.filter_subset_self _)

/-- What a process took from its subject was published to it. -/
theorem PlatformRuns.took_published (ran : PlatformRuns platform tasks events last)
    (fresh : platform.Fresh) (took : Took subject (own pid events) msg) :
    msg ∈ BrokerCall.published subject (brokerCalls (events.map answered)) := by
  cases took with
  | received ownEarly ownLate room id opened takes =>
      obtain ⟨early, event, late, rfl, rfl, subscribes, -, rfl⟩ := exists_split_of_own_eq opened
      obtain ⟨rfl, leads⟩ := ran.leads_after subscribes
      have taken := mem_takenIn (own_subset _ _ takes)
      have published := (BrokerCall.taken_sublist leads).subset taken
      exact published_mono (by simp) published
  | fetched ownEarly ownLate stream id opened takes =>
      obtain ⟨early, event, late, rfl, rfl, subscribes, -, rfl⟩ := exists_split_of_own_eq opened
      obtain ⟨fetching, member, -, fetches⟩ := mem_own.mp takes
      obtain ⟨between, rest, rfl⟩ := List.append_of_mem member
      obtain ⟨_, subscribed⟩ := ran.executed_of_answered_eq (by simp) subscribes
      obtain ⟨_, fetched⟩ := ran.executed_of_answered_eq (by simp) fetches
      -- the consumer keeps its filter up to the fetch, and the streams hold published messages
      have reads := BrokerCall.reads_of_pullSubscribe (broker_of_execute subscribed)
      have split : early ++ event :: (between ++ fetching :: rest) =
          (early ++ event :: between) ++ fetching :: rest := by
        simp
      rw [split] at ran ⊢
      obtain ⟨there, ranThere, _, -, beforeEq, -, -⟩ := Processes.ran_append.mp ran
      obtain ⟨_, -, _, -, -, -, ranBetween⟩ := Processes.ran_append.mp ranThere
      have stillReads := reads.run (leads_run ranBetween)
      have retains : BrokerCall.Retains [] platform.broker := by
        intro name stream found
        simp [fresh.broker, Broker.empty] at found
      have retainsThere := retains.run (leads_run ranThere)
      rw [← beforeEq] at stillReads retainsThere
      have published := BrokerCall.published_of_fetch retainsThere stillReads
        (broker_of_execute fetched)
      exact published_mono (List.subset_append_left _ _) published

/-! ### Where a message comes from -/

/-- The outputs that a process leaves to a goroutine. -/
theorem PlatformRuns.returned_of_starts
    (ran : PlatformRuns platform tasks (early ++ event :: late) last) (fresh : platform.Fresh)
    {outs : List Msg} (starts : event.request = .startWorker outs) :
    ∀ msg ∈ outs, IsReturned tasks early msg := by
  have calls := ran.publishes
  rw [starts] at calls
  obtain ⟨middle, ranEarly, -⟩ := Processes.ran_append.mp ran
  cases task : tasks event.pid with
  | runtime deployment language project name code rounds =>
      simp only [task, PublishCalls, PlatformTask.publications, Runtimes.outputMessages] at calls
      obtain ⟨taken, took, rfl⟩ := calls
      intro msg member
      have published := PlatformRuns.publishedIn ranEarly
        (PlatformRuns.took_published ranEarly fresh took)
      exact ⟨event.pid, deployment, language, project, name, code, rounds, taken, task,
        published.1, published.2, member⟩
  | _ =>
      simp only [task, PublishCalls, PlatformTask.publications, requestMessages, readMessages,
        handedOutMessages] at calls

/-- What a process lets a reader make of the messages of its client. -/
theorem PlatformRuns.requested_of_reads
    (ran : PlatformRuns platform tasks (early ++ event :: late) last)
    {publishes : Bytes → Msg} (starts : event.request = .startReader publishes) (data : Bytes) :
    IsRequested tasks (publishes data) := by
  have calls := ran.publishes
  rw [starts] at calls
  cases task : tasks event.pid with
  | sync client r =>
      rw [task] at calls
      exact ⟨event.pid, r, congrArg PlatformTask.request task, calls data⟩
  | sse client r rounds =>
      rw [task] at calls
      exact ⟨event.pid, r, congrArg PlatformTask.request task, calls data⟩
  | ws client r rounds =>
      rw [task] at calls
      exact ⟨event.pid, r, congrArg PlatformTask.request task, calls data⟩
  | _ =>
      rw [task] at calls
      exact calls.elim

/-- A reader was started by a process that serves a request. -/
theorem PlatformRuns.requested_of_awaits (ran : PlatformRuns platform tasks events last)
    (fresh : platform.Fresh) {index : Nat} {publishes : Bytes → Msg}
    (awaited : ⟨.awaitReader index, publishes⟩ ∈ own pid events) (data : Bytes) :
    IsRequested tasks (publishes data) := by
  obtain ⟨event, member, -, -, _, executed⟩ := ran.executed_of_mem_own awaited
  obtain ⟨early, late, rfl⟩ := List.append_of_mem member
  obtain ⟨found, isFound, same⟩ := Option.map_eq_some_iff.mp executed
  obtain ⟨rfl, -⟩ := Prod.mk.inj same
  obtain ⟨middle, ranEarly, -, -, beforeEq, -⟩ := Processes.ran_append.mp ran
  have started := PlatformRuns.started ranEarly fresh
  rw [← beforeEq] at started
  obtain ⟨starting, startMember, starts⟩ := started.readers _ (List.mem_of_getElem? isFound)
  obtain ⟨first, rest, rfl⟩ := List.append_of_mem startMember
  exact PlatformRuns.requested_of_reads ranEarly starts data

/-- A goroutine was started by a runtime with the outputs for one message. -/
theorem PlatformRuns.returned_of_awaits (ran : PlatformRuns platform tasks events last)
    (fresh : platform.Fresh) {index : Nat} {outs : List Msg}
    (awaited : ⟨.awaitWorker index, outs⟩ ∈ own pid events) :
    ∀ msg ∈ outs, IsReturned tasks events msg := by
  obtain ⟨event, member, -, -, _, executed⟩ := ran.executed_of_mem_own awaited
  obtain ⟨early, late, rfl⟩ := List.append_of_mem member
  obtain ⟨found, isFound, same⟩ := Option.map_eq_some_iff.mp executed
  obtain ⟨rfl, -⟩ := Prod.mk.inj same
  obtain ⟨middle, ranEarly, -, -, beforeEq, -⟩ := Processes.ran_append.mp ran
  have started := PlatformRuns.started ranEarly fresh
  rw [← beforeEq] at started
  obtain ⟨starting, startMember, starts⟩ := started.workers _ (List.mem_of_getElem? isFound)
  obtain ⟨first, rest, rfl⟩ := List.append_of_mem startMember
  intro msg msgMember
  exact (PlatformRuns.returned_of_starts ranEarly fresh starts msg msgMember).mono (by simp)

/-- Every published message is a request or an output. -/
theorem PlatformRuns.origin
    (ran : PlatformRuns platform tasks (early ++ event :: late) last) (fresh : platform.Fresh)
    (publishes : event.answered = ⟨.broker (.publish msg.subject msg), true⟩) :
    IsRequested tasks msg ∨ IsReturned tasks early msg := by
  have calls := ran.publishes
  rw [show event.request = .broker (.publish msg.subject msg) from congrArg Sigma.fst publishes]
    at calls
  obtain ⟨middle, ranEarly, -⟩ := Processes.ran_append.mp ran
  obtain ⟨-, allowed⟩ := calls
  cases task : tasks event.pid with
  | sync client r =>
      rw [task] at allowed
      exact .inl ⟨event.pid, r, congrArg PlatformTask.request task, allowed⟩
  | sse client r rounds =>
      rw [task] at allowed
      exact .inl ⟨event.pid, r, congrArg PlatformTask.request task, allowed⟩
  | ws client r rounds =>
      rw [task] at allowed
      exact .inl ⟨event.pid, r, congrArg PlatformTask.request task, allowed⟩
  | reader index rounds =>
      rw [task] at allowed
      obtain ⟨index, publishes, data, awaited, rfl⟩ := allowed
      exact .inl (PlatformRuns.requested_of_awaits ranEarly fresh awaited data)
  | worker index =>
      rw [task] at allowed
      obtain ⟨index, outs, awaited, member⟩ := allowed
      exact .inr (PlatformRuns.returned_of_awaits ranEarly fresh awaited msg member)
  | runtime deployment language project name code rounds =>
      rw [task] at allowed
      obtain ⟨taken, took, member⟩ := allowed
      have published := PlatformRuns.publishedIn ranEarly
        (PlatformRuns.took_published ranEarly fresh took)
      exact .inr ⟨event.pid, deployment, language, project, name, code, rounds, taken, task,
        published.1, published.2, member⟩
  | operator task =>
      rw [task] at allowed
      exact allowed.elim

end Runs

section Tokens

variable {r : HttpRequest} {lang project name tag id : String}

/-- A pattern of literal tokens matches only itself. -/
theorem matchTokens_literals {patterns tokens : List String}
    (literal : ∀ pattern ∈ patterns, IsToken pattern) :
    matchTokens patterns tokens = true ↔ patterns = tokens := by
  induction patterns generalizing tokens with
  | nil => cases tokens <;> simp [matchTokens]
  | cons pattern patterns ih =>
      have isToken := literal pattern List.mem_cons_self
      cases tokens with
      | nil => simp [matchTokens]
      | cons token tokens =>
          rw [matchTokens_literal isToken, Bool.and_eq_true, beq_iff_eq, List.cons.injEq,
            ih fun other member => literal other (List.mem_cons_of_mem _ member)]

theorem tokens_execution (project name lang id : String) :
    tokens s!"{project}.{name}.exec.{lang}.{id}" =
      tokens project ++ tokens name ++ "exec" :: (tokens lang ++ tokens id) := by
  have text : project ++ "." ++ name ++ ".exec." ++ lang ++ "." ++ id =
      project ++ "." ++ name ++ "." ++ "exec" ++ "." ++ lang ++ "." ++ id := by
    rw [show ".exec." = "." ++ "exec" ++ "." from rfl]
    simp only [String.append_assoc]
  have execToken : IsToken "exec" := by decide
  have cut := tokens_subject project name "exec" lang id
  rw [← text, execToken.tokens_eq, List.append_assoc ["exec"]] at cut
  exact cut

theorem tokens_execSubject (r : HttpRequest) (lang : String) :
    tokens (execSubject (requestOf r lang)) =
      tokens (parsePath r.path).1 ++ tokens (parsePath r.path).2 ++
        "exec" :: (tokens lang ++ [r.reqID]) := by
  have idToken : IsToken r.reqID := randString_reqID_isToken r.draws
  have cut := tokens_execution (parsePath r.path).1 (parsePath r.path).2 lang r.reqID
  rw [idToken.tokens_eq] at cut
  simp only [execSubject, requestOf]
  exact cut

theorem tokens_result (project name tag id : String) :
    tokens s!"{project}.{name}.res.{tag}.{id}" =
      tokens project ++ tokens name ++ "res" :: (tokens tag ++ tokens id) := by
  have text : project ++ "." ++ name ++ ".res." ++ tag ++ "." ++ id =
      project ++ "." ++ name ++ "." ++ "res" ++ "." ++ tag ++ "." ++ id := by
    rw [show ".res." = "." ++ "res" ++ "." from rfl]
    simp only [String.append_assoc]
  have resToken : IsToken "res" := by decide
  have cut := tokens_subject project name "res" tag id
  rw [← text, resToken.tokens_eq, List.append_assoc ["res"]] at cut
  exact cut

/-- Five tokens leave one for each part of an execution subject. -/
theorem execSubject_parts {first second third fourth fifth : String}
    (five : tokens (execSubject (requestOf r lang)) = [first, second, third, fourth, fifth]) :
    parsePath r.path = (first, second) ∧ third = "exec" ∧ lang = fourth ∧ r.reqID = fifth := by
  rw [tokens_execSubject] at five
  have nonempty : ∀ text : String, 0 < (tokens text).length := fun text =>
    List.length_pos_iff.mpr (pieces_ne_nil '.' text)
  have lengths := congrArg List.length five
  have projectCount := nonempty (parsePath r.path).1
  have nameCount := nonempty (parsePath r.path).2
  have langCount := nonempty lang
  simp only [List.length_append, List.length_cons, List.length_nil] at lengths
  obtain ⟨project, projectEq⟩ := List.length_eq_one_iff.mp
    (show (tokens (parsePath r.path).1).length = 1 by omega)
  obtain ⟨name, nameEq⟩ := List.length_eq_one_iff.mp
    (show (tokens (parsePath r.path).2).length = 1 by omega)
  obtain ⟨tag, langEq⟩ := List.length_eq_one_iff.mp (show (tokens lang).length = 1 by omega)
  rw [projectEq, nameEq, langEq] at five
  simp only [List.cons_append, List.nil_append, List.cons.injEq, and_true] at five
  obtain ⟨rfl, rfl, rfl, rfl, rfl⟩ := five
  exact ⟨Prod.ext (eq_of_pieces_singleton projectEq) (eq_of_pieces_singleton nameEq), rfl,
    eq_of_pieces_singleton langEq, rfl⟩

/-- The request id that a runtime finds in five tokens. -/
theorem requestId_of_tokens (language : Language) {subject : String} (idToken : IsToken id)
    (projectToken : IsToken project) (nameToken : IsToken name)
    (five : tokens subject = [project, name, "exec", language.runtimeTag, id]) :
    language.requestId subject = id := by
  have last : lastToken subject = id := by
    simp only [lastToken, five]
    rfl
  cases language with
  | python => exact last
  | go => exact last
  | rust => exact last
  | ts => simp [Language.requestId, five]
  | lua =>
      rw [Language.requestId_lua, five, List.filter_eq_self.mpr]
      · rfl
      · simp [projectToken.1, nameToken.1, idToken.1, Language.runtimeTag]

end Tokens

/-! ### What clients get -/

section Clients

variable {tasks : Pid → PlatformTask} {events : List (PlatformEvent Pid)}
variable {r : HttpRequest} {lang : String} {msg : Msg}

/-- The names of the functions that runtimes serve are single tokens. -/
def ServesTokens (tasks : Pid → PlatformTask) : Prop :=
  ∀ pid deployment language project name code rounds,
    tasks pid = .runtime deployment language project name code rounds →
      IsToken project ∧ IsToken name

/-- A path that names project and function by single tokens. -/
def Ingestor.HttpRequest.NamesTokens (r : HttpRequest) : Prop :=
  IsToken (parsePath r.path).1 ∧ IsToken (parsePath r.path).2

theorem tokens_replySubject (named : r.NamesTokens) (langToken : IsToken lang) :
    tokens (replySubject (requestOf r lang)) =
      [(parsePath r.path).1, (parsePath r.path).2, "res", lang, r.reqID] := by
  have idToken : IsToken r.reqID := randString_reqID_isToken r.draws
  have cut := tokens_result (parsePath r.path).1 (parsePath r.path).2 lang r.reqID
  rw [named.1.tokens_eq, named.2.tokens_eq, langToken.tokens_eq, idToken.tokens_eq] at cut
  simp only [replySubject, requestOf]
  exact cut

theorem matches_replySubject_iff (named : r.NamesTokens) (langToken : IsToken lang)
    (subject : String) : matchesPattern (replySubject (requestOf r lang)) subject = true ↔
      tokens subject = [(parsePath r.path).1, (parsePath r.path).2, "res", lang, r.reqID] := by
  have idToken : IsToken r.reqID := randString_reqID_isToken r.draws
  have resToken : IsToken "res" := by decide
  rw [matchesPattern, tokens_replySubject named langToken, matchTokens_literals, eq_comm]
  simp only [List.mem_cons, List.not_mem_nil, or_false, forall_eq_or_imp, forall_eq]
  exact ⟨named.1, named.2, resToken, langToken, idToken⟩

/-- The runtime of the function that the request names has returned the data
for the body of a published message of a request with the same path and id. -/
def ReturnedByFunction (tasks : Pid → PlatformTask) (events : List (PlatformEvent Pid))
    (r : HttpRequest) (data : Bytes) : Prop :=
  ∃ pid deployment language code rounds body,
    tasks pid =
        .runtime deployment language (parsePath r.path).1 (parsePath r.path).2 code rounds ∧
      PublishedIn events ⟨execSubject (requestOf r language.runtimeTag), body⟩ ∧
      ∃ out ∈ (language.consumer (parsePath r.path).1 (parsePath r.path).2 code).handle
        ⟨execSubject (requestOf r language.runtimeTag), body⟩, out.data = data

/-- The subjects that a consumer of token names receives. -/
theorem tokens_of_matches {language : Language} {project name subject : String} {code : UserCode}
    (projectToken : IsToken project) (nameToken : IsToken name)
    (matched : matchesPattern (language.consumer project name code).subject subject = true) :
    ∃ id, tokens subject = [project, name, "exec", language.runtimeTag, id] := by
  rw [matchesPattern, tokens_consumer_subject, projectToken.tokens_eq, nameToken.tokens_eq]
    at matched
  have execToken : IsToken "exec" := by decide
  have count := matchTokens_length matched (by simp)
  generalize tokens subject = parts at matched count ⊢
  rcases parts with _ | ⟨first, _ | ⟨second, _ | ⟨third, _ | ⟨fourth, _ | ⟨fifth, _ | ⟨sixth, parts⟩⟩⟩⟩⟩⟩
  case cons.cons.cons.cons.cons.nil =>
      simp only [List.cons_append, List.nil_append, matchTokens_literal projectToken,
        matchTokens_literal nameToken, matchTokens_literal execToken,
        matchTokens_literal language.runtimeTag_isToken, matchTokens_star, Bool.and_eq_true,
        beq_iff_eq, and_true] at matched
      obtain ⟨rfl, rfl, rfl, rfl⟩ := matched
      exact ⟨fifth, rfl⟩
  all_goals simp at count

variable [DecidableEq Pid] {platform : Platform}
variable {last : Processes Pid PlatformCall Response PlatformOutcome Platform}

/-- What a runtime takes for a function of token names is a message of a
request. -/
theorem PlatformRuns.requested_of_matches (ran : PlatformRuns platform tasks events last)
    (fresh : platform.Fresh) (serves : ServesTokens tasks) {language : Language}
    {project name : String} {code : UserCode} (projectToken : IsToken project)
    (nameToken : IsToken name) (published : PublishedIn events msg)
    (matched : matchesPattern (language.consumer project name code).subject msg.subject = true) :
    ∃ other, parsePath other.path = (project, name) ∧
      msg.subject = execSubject (requestOf other language.runtimeTag) ∧
      language.requestId msg.subject = other.reqID := by
  obtain ⟨id, five⟩ := tokens_of_matches projectToken nameToken matched
  obtain ⟨event, member, publishes⟩ := published
  obtain ⟨early, late, rfl⟩ := List.append_of_mem member
  rcases ran.origin fresh publishes with requested | returned
  · obtain ⟨pid, other, -, lang, subjectEq⟩ := requested
    rw [subjectEq] at five
    obtain ⟨names, -, rfl, rfl⟩ := execSubject_parts five
    refine ⟨other, names, subjectEq, ?_⟩
    rw [subjectEq]
    exact requestId_of_tokens language (randString_reqID_isToken other.draws) projectToken
      nameToken five
  · obtain ⟨pid, _, other, otherProject, otherName, otherCode, _, taken, runs, -, -, member⟩ :=
      returned
    obtain ⟨otherProjectToken, otherNameToken⟩ := serves _ _ _ _ _ _ _ runs
    rw [other.consumer_handle_requestId otherProject otherName otherCode taken msg member,
      tokens_result, otherProjectToken.tokens_eq, otherNameToken.tokens_eq] at five
    simp at five

/-- A result for a request was returned by the function that the request
names. -/
theorem PlatformRuns.returnedByFunction (ran : PlatformRuns platform tasks events last)
    (fresh : platform.Fresh) (serves : ServesTokens tasks) (named : r.NamesTokens)
    (langToken : IsToken lang) (published : PublishedIn events msg)
    (matched : matchesPattern (replySubject (requestOf r lang)) msg.subject = true) :
    ReturnedByFunction tasks events r msg.data := by
  have five := (matches_replySubject_iff named langToken msg.subject).mp matched
  obtain ⟨event, member, publishes⟩ := published
  obtain ⟨early, late, rfl⟩ := List.append_of_mem member
  rcases ran.origin fresh publishes with requested | returned
  · obtain ⟨pid, other, -, otherLang, subjectEq⟩ := requested
    rw [subjectEq] at five
    exact absurd (execSubject_parts five).2.1 (by decide)
  · have grown : early ⊆ early ++ event :: late := List.subset_append_left _ _
    obtain ⟨pid, deployment, language, project, name, code, rounds, taken, runs, publishedTaken,
      matchedTaken, isOutput⟩ := returned
    obtain ⟨projectToken, nameToken⟩ := serves _ _ _ _ _ _ _ runs
    have takenToo := publishedTaken.mono grown
    obtain ⟨other, names, takenSubject, idEq⟩ :=
      ran.requested_of_matches fresh serves projectToken nameToken takenToo matchedTaken
    rw [language.consumer_handle_requestId project name code taken msg isOutput, tokens_result,
      projectToken.tokens_eq, nameToken.tokens_eq, language.runtimeTag_isToken.tokens_eq, idEq,
      show tokens other.reqID = [other.reqID] from
        (randString_reqID_isToken other.draws).tokens_eq] at five
    simp only [List.cons_append, List.nil_append, List.cons.injEq, and_true, true_and] at five
    obtain ⟨rfl, rfl, rfl, sameId⟩ := five
    have sameSubject : taken.subject = execSubject (requestOf r language.runtimeTag) := by
      rw [takenSubject]
      simp only [execSubject, requestOf, names, sameId]
    obtain ⟨subject, body⟩ := taken
    obtain rfl : subject = execSubject (requestOf r language.runtimeTag) := sameSubject
    exact ⟨pid, deployment, language, code, rounds, body, runs, takenToo, msg, isOutput, rfl⟩

/-- In every run that starts with a fresh broker, whatever a client gets was
returned by the code of the function that it asked for. -/
theorem clientGets_returned (platform : Platform) (fresh : platform.Fresh)
    (tasks : Pid → PlatformTask) (serves : ServesTokens tasks)
    (schedule : List (Pid × PlatformCall.Circumstance)) (pid : Pid) (r : HttpRequest)
    (handles : (tasks pid).request = some r) (named : r.NamesTokens)
    (langs : ∀ lang, ∀ answered ∈ own pid (platformEvents platform tasks schedule),
      HandedOver r lang answered → IsToken lang) :
    ∀ data ∈ clientGets pid (platformEvents platform tasks schedule)
        (platformAfter platform tasks schedule),
      ReturnedByFunction tasks (platformEvents platform tasks schedule) r data := by
  intro data member
  have ran : PlatformRuns platform tasks _ _ := platformRuns_run platform tasks schedule
  obtain ⟨early, event, late, lang, id, split, rfl, -, ⟨answered, handedMember, handed⟩, sublist, -⟩ :=
    ran.getsResults pid r handles (List.ne_nil_of_mem member)
  have langToken : IsToken lang := by
    apply langs lang answered _ handed
    rw [split, own_append]
    exact List.mem_append_left _ handedMember
  obtain ⟨msg, published, rfl⟩ := List.mem_map.mp (sublist.subset member)
  have subset : late ⊆ platformEvents platform tasks schedule := by
    rw [split]
    exact List.subset_append_of_subset_right _ (List.subset_cons_self _ _)
  obtain ⟨publishedIn, isMatch⟩ := ran.publishedIn (published_mono subset published)
  exact ran.returnedByFunction fresh serves named langToken publishedIn isMatch

end Clients

/-- The runtime answers after the handler has subscribed to its results. -/
def timelyAnswer : List (Nat × PlatformCall.Circumstance) :=
  [1, 1, 0, 0, 0, 0, 0, 0, 1, 1, 2, 2, 0, 0].map fun pid => (pid, { data := [123, 125] })

theorem goPlatform_fresh : goPlatform.Fresh :=
  ⟨rfl, rfl, rfl⟩

/-- The client gets the answer, and the Go function returned it. -/
theorem timely_answer_returned :
    clientGets 0 (platformEvents goPlatform streamAndRuntime timelyAnswer)
        (platformAfter goPlatform streamAndRuntime timelyAnswer) = [[123, 125]] ∧
      ReturnedByFunction streamAndRuntime (platformEvents goPlatform streamAndRuntime timelyAnswer)
        streamedRequest [123, 125] := by
  have gets : clientGets 0 (platformEvents goPlatform streamAndRuntime timelyAnswer)
      (platformAfter goPlatform streamAndRuntime timelyAnswer) = [[123, 125]] := by
    decide +kernel
  have serves : ServesTokens streamAndRuntime := by
    intro pid deployment language project name code rounds runs
    match pid, runs with
    | 1, runs =>
        obtain ⟨-, -, rfl, rfl, -⟩ := PlatformTask.runtime.inj runs
        decide
  have handedOver : (own 0 (platformEvents goPlatform streamAndRuntime timelyAnswer))[4]? =
      some ⟨.broker (.publish "projone.one.exec.go.aaaaaaaa"
        ⟨"projone.one.exec.go.aaaaaaaa", [123, 125]⟩), true⟩ := by
    rfl
  have ran : PlatformRuns goPlatform streamAndRuntime _ _ :=
    platformRuns_run goPlatform streamAndRuntime timelyAnswer
  have langs : ∀ lang,
      ∀ answered ∈ own 0 (platformEvents goPlatform streamAndRuntime timelyAnswer),
        HandedOver streamedRequest lang answered → IsToken lang := by
    intro lang answered member handed
    have handedGo : HandedOver streamedRequest "go" ⟨.broker (.publish
        "projone.one.exec.go.aaaaaaaa" ⟨"projone.one.exec.go.aaaaaaaa", [123, 125]⟩), true⟩ :=
      .inl ⟨_, rfl⟩
    have handles : (streamAndRuntime 0).request = some streamedRequest := rfl
    obtain rfl := ran.handedOver_unique handles (List.mem_of_getElem? handedOver) member
      handedGo handed
    decide
  apply And.intro gets
  apply clientGets_returned goPlatform goPlatform_fresh streamAndRuntime serves timelyAnswer 0
    streamedRequest rfl ⟨by decide, by decide⟩ langs
  rw [gets]
  exact List.mem_singleton_self _

end Litefunctions
