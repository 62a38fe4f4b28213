import Litefunctions.PlatformRuns
import Litefunctions.StaleReads

/-!
# What processes do with Function objects

A handler of the ingestor activates the function that its request names and
then goes on with what the operator returned.  On the way the operator writes
an object back that it has read, with the same identity.  No other process but
a remote call of `CreateFunction` stores a new identity.
-/

namespace Litefunctions

open Program Platform

namespace Operator

/-- A call writes back an object that was read, with the same identity, or
asks for a new object. -/
def Reproduces (history : ApiHistory) : ApiCall → Prop
  | .functions (.update object) =>
      ∃ key read, ⟨.functions (.get key), Except.ok read⟩ ∈ history ∧ object.key = read.key ∧
        SameIdentity read.content object.content
  | .functions (.create key spec) =>
      ∃ req : CreateFunctionRequest, key = req.key ∧ spec = newSpec req
  | _ => True

theorem allowsTask_reproduces (activates deactivates : Bool) :
    AllowsTask activates deactivates Reproduces where
  quiet history call isQuiet := by
    rcases call with (_ | _ | _ | _ | _ | _) | _ | _ | _ <;> trivial
  renewal history key read time member := by
    refine ⟨key, read, member, ?_⟩
    cases activates with
    | false => exact ⟨rfl, .refl _⟩
    | true => exact ⟨rfl, .refl _⟩
  deactivation _ history function := trivial
  creation history req := ⟨req, rfl, rfl⟩

/-- An accepted update of the object that was read under the key. -/
def Updated (key : NamespacedName) (fn : Function) (history : ApiHistory) : Prop :=
  ∃ read object : Function, ⟨.functions (.get key), Except.ok read⟩ ∈ history ∧
    object.key = read.key ∧ ⟨.functions (.update object), Except.ok fn⟩ ∈ history

theorem activate_updates (keepWarmDuration : Int) (namespace_ name : String)
    (history : ApiHistory) :
    (activate keepWarmDuration namespace_ name).Along Reproduces
      (fun after result => ∀ info, result = .ok info →
        ∃ fn, Updated ⟨namespace_, name⟩ fn after ∧ info = activateResponse fn) history := by
  have allows := allowsTask_reproduces true false
  unfold activate markFunctionActive
  split
  · intro info isOk
    cases isOk
  · simp only [along_bind]
    apply (getFunction_along allows namespace_ name history).imp (fun _ _ => id)
    rintro after (err | function) read
    · intro info isOk
      cases isOk
    · have readBefore := read function rfl
      refine ⟨trivial, fun now => ⟨?_, fun response => ?_⟩⟩
      · exact allows.renewal _ _ function _ (List.mem_append_left _ readBefore)
      · cases response with
        | error err =>
            intro info isOk
            cases isOk
        | ok fn =>
            intro info isOk
            refine ⟨fn, ⟨function, (function.setActive true).withLease
              (now + keepWarm keepWarmDuration), ?_, rfl, ?_⟩, (Except.ok.inj isOk).symm⟩
            · exact List.mem_append_left _ (List.mem_append_left _ readBefore)
            · exact List.mem_append_right _ List.mem_cons_self

end Operator

/-! ### Calls of the platform -/

/-- What was answered to the operator within a history of the platform. -/
abbrev EmbedsApi : ApiHistory → PlatformHistory → Prop :=
  Embeds PlatformCall.api fun _ response => response

theorem mem_of_embedsApi {part : ApiHistory} {history : PlatformHistory}
    (embeds : EmbedsApi part history) {call : ApiCall} {response : call.Response}
    (member : ⟨call, response⟩ ∈ part) : ⟨.api call, response⟩ ∈ history := by
  obtain ⟨answer, answerEq, found⟩ := embeds _ member
  exact (show answer = response from answerEq) ▸ found

/-- Calls to the API server reproduce Function objects. -/
def ReproducesOn (history : PlatformHistory) : PlatformCall → Prop
  | .api request => ∃ part, EmbedsApi part history ∧ Operator.Reproduces part request
  | _ => True

/-- The call does not go to the API server. -/
def LeavesCluster : PlatformCall → Prop
  | .api _ => False
  | _ => True

theorem ReproducesOn.of_leaves {history : PlatformHistory} {call : PlatformCall}
    (leaves : LeavesCluster call) : ReproducesOn history call := by
  cases call with
  | api call => exact leaves.elim
  | _ => trivial

theorem operate_reproduces {Result : Type} {program : ApiProgram Result}
    {finished : ApiHistory → Result → Prop}
    (along : program.Along Operator.Reproduces finished []) :
    (operate program).Along (fun history call => ReproducesOn history call ∧ ¬ LeavesCluster call)
      (fun after result => ∃ part, EmbedsApi part after ∧ finished part result) [] := by
  have embeds : EmbedsApi [] [] := by
    intro answered member
    cases member
  refine (along.lift embeds).imp ?_ fun _ _ => id
  rintro before request ⟨part, inner, partEmbeds, rfl, reproduces⟩
  exact ⟨⟨part, partEmbeds, reproduces⟩, id⟩

namespace Ingestor

/-! ### Calls of the handlers -/

/-- The calls that hand a request on, to a service or to the broker. -/
def Serves : PlatformCall → Prop
  | .proxy _ => True
  | request => HandsOver request

/-- What a handler does with the function that it activated. -/
def UsesFunction (r : HttpRequest) (info : Operator.ActivateResponse) : PlatformCall → Prop
  | .api _ | .activate _ _ => False
  | .proxy request =>
      request = proxyToRuntime r (parsePath r.path).1 (parsePath r.path).2 "default"
        info.serviceName info.servicePort
  | .broker (.publish subject _) => subject = execSubject (requestOf r info.language)
  | .startReader publishes =>
      publishes = fun msg => ⟨execSubject (requestOf r info.language), msg⟩
  | _ => True

theorem UsesFunction.leavesCluster {r : HttpRequest} {info : Operator.ActivateResponse}
    {call : PlatformCall} (uses : UsesFunction r info call) : LeavesCluster call := by
  cases call with
  | api call => exact uses.elim
  | _ => trivial

/-- The program activates the function of the request first.  It stops at an
error and otherwise uses what the operator returned; it refuses the method of
the request only where one is expected. -/
def ActivatesFirst (client : OperatorClient) (r : HttpRequest) (program : PlatformProgram Answer) :
    Prop :=
  ∃ rest, program = activateFunction client (parsePath r.path).1 (parsePath r.path).2 >>= rest ∧
    (∀ err, rest (.error err) = done (.error 400 (.activation err))) ∧
    ∀ info history, (rest (.ok info)).Along (fun _ call => UsesFunction r info call)
      (fun _ answer => ∀ allow, answer = .methodNotAllowed allow → info.method ≠ "") history

section Handlers

variable {r : HttpRequest} {info : Operator.ActivateResponse}

theorem submitRequest_uses (history : PlatformHistory) :
    (submitRequest r info.language).Along (fun _ call => UsesFunction r info call)
      (fun _ _ => True) history := by
  simp only [submitRequest, submit_eq, along_bind]
  apply And.intro trivial
  intro response
  cases response with
  | none => trivial
  | some body =>
      apply And.intro rfl
      intro response
      cases response <;> trivial

theorem produceRequest_uses (history : PlatformHistory) :
    (produceRequest r info.language).Along (fun _ call => UsesFunction r info call)
      (fun _ _ => True) history := by
  simp only [produceRequest, produce_eq, along_bind]
  apply And.intro trivial
  intro response
  cases response with
  | false => trivial
  | true => exact ⟨rfl, fun _ => trivial⟩

theorem reply_uses (req : Req) (history : PlatformHistory) :
    (reply req).Along (fun _ call => UsesFunction r info call) (fun _ _ => True) history := by
  simp only [reply, along_bind]
  apply And.intro trivial
  intro response
  cases response with
  | none => trivial
  | some subscriber =>
      apply And.intro trivial
      intro response
      cases response <;> trivial

theorem passOn_uses (stopsOnError : Bool) (subscriber rounds : Nat) (history : PlatformHistory) :
    (passOn stopsOnError subscriber rounds).Along (fun _ call => UsesFunction r info call)
      (fun _ _ => True) history := by
  induction rounds generalizing history with
  | zero => trivial
  | succ rounds ih =>
      simp only [passOn, along_bind]
      apply And.intro trivial
      intro response
      cases response with
      | none => trivial
      | some msg =>
          simp only [along_done, along_bind]
          apply And.intro trivial
          intro written
          simp only [along_done]
          split
          · trivial
          · exact ih _

theorem streamResults_uses (stopsOnError : Bool) (req : Req) (rounds : Nat)
    (history : PlatformHistory) :
    (streamResults stopsOnError req rounds).Along (fun _ call => UsesFunction r info call)
      (fun _ answer => answer = .streamed ∨ ∃ status failure, answer = .error status failure)
      history := by
  simp only [streamResults, along_bind]
  apply And.intro trivial
  intro response
  cases response with
  | none => exact .inr ⟨_, _, rfl⟩
  | some subscriber =>
      simp only [along_done, along_bind]
      apply (passOn_uses stopsOnError subscriber rounds _).imp (fun _ _ => id)
      intro _ _ _
      exact ⟨trivial, fun _ => .inl rfl⟩

theorem method_ne_of_refused {method expected : String}
    (refused : validateMethod method expected = false) : expected ≠ "" := by
  rintro rfl
  simp [validateMethod] at refused

theorem sync_activatesFirst (client : OperatorClient) (r : HttpRequest) :
    ActivatesFirst client r (sync client r) := by
  refine ⟨_, rfl, fun _ => rfl, fun info history => ?_⟩
  simp only
  split
  · next refused =>
      intro allow _
      exact method_ne_of_refused (by simpa using refused)
  · split
    · simp only [along_bind]
      apply (submitRequest_uses history).imp (fun _ _ => id)
      rintro after (failure | req) - allow isRefused <;> cases isRefused
    · split
      · apply And.intro rfl
        intro response
        cases response <;> rintro allow isRefused <;> cases isRefused
      · simp only [along_bind]
        apply (submitRequest_uses history).imp (fun _ _ => id)
        rintro after (failure | req) -
        · rintro allow isRefused
          cases isRefused
        · simp only [along_bind]
          apply (reply_uses req after).imp (fun _ _ => id)
          rintro later (failure | res) - allow isRefused <;> cases isRefused

theorem sse_activatesFirst (client : OperatorClient) (r : HttpRequest) (rounds : Nat) :
    ActivatesFirst client r (sse client r rounds) := by
  refine ⟨_, rfl, fun _ => rfl, fun info history => ?_⟩
  simp only
  split
  · next refused =>
      intro allow _
      exact method_ne_of_refused (by simpa using refused)
  · simp only [along_bind]
    apply (submitRequest_uses history).imp (fun _ _ => id)
    rintro after (failure | req) -
    · rintro allow isRefused
      cases isRefused
    · apply (streamResults_uses false req rounds after).imp (fun _ _ => id)
      rintro later answer (rfl | ⟨status, failure, rfl⟩) allow isRefused <;> cases isRefused

theorem ws_activatesFirst (client : OperatorClient) (r : HttpRequest) (rounds : Nat) :
    ActivatesFirst client r (ws client r rounds) := by
  refine ⟨_, rfl, fun _ => rfl, fun info history => ?_⟩
  simp only
  split
  · next refused =>
      intro allow _
      exact method_ne_of_refused (by simpa using refused)
  · simp only [along_bind]
    apply (produceRequest_uses history).imp (fun _ _ => id)
    rintro after (failure | req) -
    · rintro allow isRefused
      cases isRefused
    · apply (streamResults_uses true req rounds after).imp (fun _ _ => id)
      rintro later answer (rfl | ⟨status, failure, rfl⟩) allow isRefused <;> cases isRefused

end Handlers

/-! ### Activated functions -/

/-- The function that was activated under a name. -/
def Activated (name : String) (fn : Function) (history : PlatformHistory) : Prop :=
  ∃ part, EmbedsApi part history ∧ Operator.Updated ⟨"default", name⟩ fn part

/-- The calls of a handler whose operator is the deployed one: it hands its
request on as the function says that it activated. -/
def ActivatedCalls (r : HttpRequest) (name : String) (history : PlatformHistory)
    (request : PlatformCall) : Prop :=
  ReproducesOn history request ∧ (Serves request →
    ∃ fn, Activated name fn history ∧ UsesFunction r (Operator.activateResponse fn) request)

theorem Activated.grows {name : String} {fn : Function} {early late : PlatformHistory}
    (isPrefix : early <+: late) (activated : Activated name fn early) : Activated name fn late := by
  obtain ⟨part, embeds, wasUpdated⟩ := activated
  have embedsLate : EmbedsApi part late := by
    intro answered member
    obtain ⟨answer, answerEq, found⟩ := embeds answered member
    exact ⟨answer, answerEq, isPrefix.subset found⟩
  exact ⟨part, embedsLate, wasUpdated⟩

theorem Serves.leavesCluster {request : PlatformCall} (serves : Serves request) :
    LeavesCluster request := by
  cases request with
  | api call => exact serves.elim
  | _ => trivial

theorem activateFunction_activates (r : HttpRequest) (keepWarmDuration : Int)
    (project name : String) :
    (activateFunction (.deployed keepWarmDuration) project name).Along (ActivatedCalls r name)
      (fun after result => ∀ info, result = .ok info →
        ∃ fn, Activated name fn after ∧ info = Operator.activateResponse fn) [] := by
  have updates := Operator.activate_updates keepWarmDuration "default" name []
  apply (operate_reproduces updates).imp
  · rintro before request ⟨reproduces, isApi⟩
    exact ⟨reproduces, fun serves => absurd serves.leavesCluster isApi⟩
  · rintro after result ⟨part, embeds, updated⟩ info isOk
    obtain ⟨fn, wasUpdated, infoEq⟩ := updated info isOk
    exact ⟨fn, ⟨part, embeds, wasUpdated⟩, infoEq⟩

theorem ActivatesFirst.calls {r : HttpRequest} {keepWarmDuration : Int} {name : String}
    {program : PlatformProgram Answer}
    (activatesFirst : ActivatesFirst (.deployed keepWarmDuration) r program)
    (isName : (parsePath r.path).2 = name) :
    program.Along (ActivatedCalls r name)
      (fun after answer => ∀ allow, answer = .methodNotAllowed allow →
        ∃ fn, Activated name fn after ∧ fn.content.method ≠ "") [] := by
  obtain ⟨rest, programEq, stops, uses⟩ := activatesFirst
  rw [programEq, isName]
  generalize (parsePath r.path).1 = project
  rw [along_bind]
  apply (activateFunction_activates r keepWarmDuration project name).imp (fun _ _ => id)
  rintro after (err | info) activates
  · rw [stops err]
    rintro allow isRefused
    cases isRefused
  · obtain ⟨fn, activated, rfl⟩ := activates info rfl
    apply ((uses _ after).with_past activated .grows).imp
    · rintro before request ⟨usesFunction, known⟩
      exact ⟨.of_leaves usesFunction.leavesCluster, fun _ => ⟨fn, known, usesFunction⟩⟩
    · rintro later answer ⟨expects, known⟩ allow isRefused
      exact ⟨fn, known, expects allow isRefused⟩

theorem ActivatesFirst.reproduces {client : OperatorClient} {r : HttpRequest}
    {program : PlatformProgram Answer} (activatesFirst : ActivatesFirst client r program) :
    program.Along ReproducesOn (fun _ _ => True) [] := by
  cases client with
  | deployed keepWarmDuration =>
      exact (activatesFirst.calls rfl).imp (fun _ _ => And.left) fun _ _ _ => trivial
  | any =>
      obtain ⟨rest, programEq, stops, uses⟩ := activatesFirst
      rw [programEq, along_bind]
      apply And.intro trivial
      intro response
      rw [along_done]
      cases response with
      | error err =>
          rw [stops err]
          trivial
      | ok info =>
          exact (uses info _).imp (fun _ _ isUse => .of_leaves isUse.leavesCluster)
            fun _ _ _ => trivial

end Ingestor

/-! ### Calls of the other processes -/

namespace Runtimes

abbrev LeavesAlong {Result : Type} (history : PlatformHistory) (program : PlatformProgram Result) :
    Prop :=
  program.Along (fun _ request => LeavesCluster request) (fun _ _ => True) history

theorem publishEach_leaves (outs : List Msg) (history : PlatformHistory) :
    LeavesAlong history (publishEach outs) := by
  induction outs generalizing history with
  | nil => trivial
  | cons out outs ih => exact ⟨trivial, fun _ => ih _⟩

theorem publishUntilError_leaves (outs : List Msg) (history : PlatformHistory) :
    LeavesAlong history (publishUntilError outs) := by
  induction outs generalizing history with
  | nil => trivial
  | cons out outs ih =>
      apply And.intro trivial
      intro response
      cases response with
      | false => trivial
      | true => exact ih _

theorem handleMessage_leaves (language : Language) (outs : List Msg) (history : PlatformHistory) :
    LeavesAlong history (handleMessage language outs) := by
  cases language with
  | go => exact ⟨trivial, fun _ => trivial⟩
  | rust => exact publishUntilError_leaves outs history
  | python | ts => exact (publishUntilError_leaves outs history).map fun _ => true
  | lua => exact (publishEach_leaves outs history).map fun _ => true

theorem consume_leaves (language : Language) (consumer : Consumer)
    {next : PlatformProgram (Option Msg)} (waits : ∀ history, LeavesAlong history next)
    (rounds : Nat) (history : PlatformHistory) :
    LeavesAlong history (consume language consumer next rounds) := by
  induction rounds generalizing history with
  | zero => trivial
  | succ rounds ih =>
      simp only [LeavesAlong, consume, along_bind]
      apply (waits history).imp (fun _ _ => id)
      rintro after (_ | msg) -
      · trivial
      · simp only [along_bind]
        apply (handleMessage_leaves language _ after).imp (fun _ _ => id)
        rintro later (_ | _) -
        · trivial
        · exact ih later

theorem consumeSubscription_leaves (language : Language) (consumer : Consumer) (rounds : Nat)
    (history : PlatformHistory) :
    LeavesAlong history (consumeSubscription language consumer rounds) := by
  simp only [LeavesAlong, consumeSubscription, along_bind]
  apply And.intro trivial
  intro response
  cases response with
  | none => trivial
  | some subscriber =>
      have waits : ∀ history, LeavesAlong history (receive subscriber) :=
        fun _ => ⟨trivial, fun _ => trivial⟩
      simp only [along_done, along_bind]
      exact (consume_leaves language consumer waits rounds _).imp (fun _ _ => id)
        fun _ _ _ => ⟨trivial, fun _ => trivial⟩

theorem runtime_leaves (deployment : NamespacedName) (language : Language) (project name : String)
    (code : UserCode) (rounds : Nat) :
    LeavesAlong [] (runtime deployment language project name code rounds) := by
  apply And.intro trivial
  intro _
  cases language with
  | python =>
      apply And.intro trivial
      intro response
      cases response with
      | false => trivial
      | true =>
          apply And.intro trivial
          intro response
          cases response with
          | none => trivial
          | some reader =>
              have waits : ∀ history, LeavesAlong history (fetch reader) :=
                fun _ => ⟨trivial, fun _ => trivial⟩
              exact consume_leaves _ _ waits rounds _
  | ts =>
      apply And.intro trivial
      intro response
      cases response with
      | false => trivial
      | true => exact consumeSubscription_leaves _ _ rounds _
  | go | rust | lua => exact consumeSubscription_leaves _ _ rounds _

end Runtimes

namespace PlatformTask

open Runtimes Ingestor

theorem readMessages_leaves (publishes : Bytes → Msg) (rounds : Nat) (history : PlatformHistory) :
    LeavesAlong history (Ingestor.readMessages publishes rounds) := by
  induction rounds generalizing history with
  | zero => trivial
  | succ rounds ih =>
      apply And.intro trivial
      intro response
      cases response with
      | none => trivial
      | some msg =>
          apply And.intro trivial
          intro response
          cases response with
          | false => trivial
          | true => exact ih _

/-- Every process of the platform reproduces Function objects. -/
theorem program_reproduces (task : PlatformTask) :
    task.program.Along ReproducesOn (fun _ _ => True) [] := by
  have leaving {program : PlatformProgram PlatformOutcome} (leaves : LeavesAlong [] program) :
      program.Along ReproducesOn (fun _ _ => True) [] :=
    leaves.imp (fun _ _ => .of_leaves) fun _ _ => id
  cases task with
  | sync client r => exact (sync_activatesFirst client r).reproduces.map _
  | sse client r rounds => exact (sse_activatesFirst client r rounds).reproduces.map _
  | ws client r rounds => exact (ws_activatesFirst client r rounds).reproduces.map _
  | reader index rounds =>
      apply leaving
      apply And.intro trivial
      intro publishes
      exact (readMessages_leaves publishes rounds _).map _
  | runtime deployment language project name code rounds =>
      exact leaving ((runtime_leaves deployment language project name code rounds).map _)
  | worker index =>
      apply leaving
      apply And.intro trivial
      intro outs
      exact (publishEach_leaves outs _).map _
  | operator task =>
      have calls := task.program_along (Operator.allowsTask_reproduces _ _)
      exact ((operate_reproduces calls).imp (fun _ _ => And.left) fun _ _ _ => trivial).map _

/-- The request that a handler serves with the operator of this repository. -/
def deployedRequest : PlatformTask → Option HttpRequest
  | sync (.deployed _) r => some r
  | sse (.deployed _) r _ => some r
  | ws (.deployed _) r _ => some r
  | _ => none

theorem exists_activatesFirst {task : PlatformTask} {r : HttpRequest}
    (serves : task.deployedRequest = some r) :
    ∃ keepWarmDuration program, ActivatesFirst (.deployed keepWarmDuration) r program ∧
      task.program = program >>= fun answer => done (PlatformOutcome.answered answer) := by
  unfold deployedRequest at serves
  split at serves
  · obtain rfl := Option.some.inj serves
    exact ⟨_, _, sync_activatesFirst _ _, rfl⟩
  · obtain rfl := Option.some.inj serves
    exact ⟨_, _, sse_activatesFirst _ _ _, rfl⟩
  · obtain rfl := Option.some.inj serves
    exact ⟨_, _, ws_activatesFirst _ _ _, rfl⟩
  · cases serves

/-- A handler hands its request on as the function says that it activated, and
refuses a method only where that function expects one. -/
theorem deployed_calls {task : PlatformTask} {r : HttpRequest} {name : String}
    (serves : task.deployedRequest = some r) (isName : (parsePath r.path).2 = name) :
    task.program.Along (ActivatedCalls r name)
      (fun after outcome => ∀ allow, outcome = .answered (.methodNotAllowed allow) →
        ∃ fn, Activated name fn after ∧ fn.content.method ≠ "") [] := by
  obtain ⟨keepWarmDuration, program, activatesFirst, programEq⟩ := exists_activatesFirst serves
  rw [programEq, along_bind]
  apply (activatesFirst.calls isName).imp (fun _ _ => id)
  rintro after answer expects allow isRefused
  exact expects allow (PlatformOutcome.answered.inj isRefused)

end PlatformTask

end Litefunctions
