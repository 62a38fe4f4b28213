import Litefunctions.PlatformCalls

/-!
# Request handlers of the ingestor

Every request first activates its function.  `Sync` then hands an asynchronous
request to the broker, sends any other to the service of the runtime, or waits
for a reply of the broker where there is no service.  `SSE` and `WS` pass on
the results that the broker delivers until the client is gone.
-/

namespace Litefunctions

namespace Ingestor

open Program Platform

/-- A request of a client, with the draws that make its request id. -/
structure HttpRequest where
  path : String
  method : String
  draws : Fin 8 → Fin letterBytes.length

def HttpRequest.reqID (r : HttpRequest) : String :=
  randString (List.ofFn r.draws)

/-- The operator that the ingestor calls: any at all, or the one of this
repository. -/
inductive OperatorClient where
  | any
  | deployed (keepWarmDuration : Int)

/-- Why a handler answers with an error. -/
inductive Failure where
  | activation (err : Operator.Status)
  | readingBody
  | submitting
  | startingSubscriber
  | returningResponse
  | upgrading
  | proxying
  deriving DecidableEq, Repr

/-- What stands before the cause in the text of an error. -/
def Failure.context : Failure → String
  | activation _ => "failed to call operator gRPC: "
  | readingBody => "error reading request body: "
  | submitting => "error submitting request: "
  | startingSubscriber => "error starting subscriber: "
  | returningResponse => "error returning response: "
  | upgrading => "error upgrading connection: "
  | proxying => ""

/-- What a client gets. -/
inductive Answer where
  | error (status : Nat) (failure : Failure)
  | methodNotAllowed (allow : String)
  | accepted
  | proxied
  | reply (res : Bytes)
  | streamed
  deriving DecidableEq, Repr

/-- The activation of a function names it without its project. -/
def activateFunction (client : OperatorClient) (_project name : String) :
    PlatformProgram (Except Operator.Status Operator.ActivateResponse) :=
  match client with
  | .any => activate "default" name
  | .deployed keepWarmDuration => operate (Operator.activate keepWarmDuration "default" name)

/-- The letter that stands for a letter up to case; an ASCII letter has one
such class with `ſ` and with the sign for Kelvin. -/
def foldCase (char : Char) : Char :=
  if char = 'ſ' then 's' else if char = '\u212a' then 'k' else char.toLower

/-- `strings.EqualFold`, where one of the texts is ASCII. -/
def equalFold (first second : String) : Bool :=
  first.toList.map foldCase = second.toList.map foldCase

/-- Whether the method of a request is the expected one. -/
def validateMethod (method expected : String) : Bool :=
  expected = "" || equalFold method expected

/-- `strings.TrimPrefix`. -/
def trimPrefix (text leading : String) : String :=
  if leading.toList.isPrefixOf text.toList then
    String.ofList (text.toList.drop leading.length)
  else
    text

/-- The request that `proxyToRuntime` sends. -/
def proxyToRuntime (r : HttpRequest) (project name namespace_ service : String) (port : Nat) :
    ProxyRequest :=
  let runtimePath := trimPrefix r.path s!"/lambda/{project}/{name}"
  { service
    namespace_
    port
    method := r.method
    path := if "/".toList.isPrefixOf runtimePath.toList then runtimePath else "/" ++ runtimePath
    functionName := name
    project }

/-! ### The broker package -/

/-- `Submit`: read the body and publish it. -/
def submitRequest (r : HttpRequest) (lang : String) : PlatformProgram (Except Failure Req) := do
  match ← readBody with
  | none => return .error .readingBody
  | some body =>
      let submitted := submit r.path body lang r.reqID
      if ← publish submitted.2 then
        return .ok submitted.1
      else
        return .error .submitting

/-- `Produce`: upgrade the connection and start the reader that publishes what
the client sends. -/
def produceRequest (r : HttpRequest) (lang : String) : PlatformProgram (Except Failure Req) := do
  let produced := produce r.path lang r.reqID
  if ← upgrade then
    startReader produced.2
    return .ok produced.1
  else
    return .error .upgrading

/-- `Reply`: subscribe and wait for one message.  The subscription stays. -/
def reply (req : Req) : PlatformProgram (Except Failure Bytes) := do
  match ← subscribe (replySubject req) none with
  | none => return .error .startingSubscriber
  | some subscriber =>
      match ← receive subscriber with
      | none => return .error .returningResponse
      | some msg => return .ok msg.data

/-- The loop of `SSE` and `WS` over the channel of `Subscribe`.  It ends when
the client is gone or, for `WS`, when writing fails; running out of `rounds`
stands for the client leaving then. -/
def passOn (stopsOnError : Bool) (subscriber : Nat) : (rounds : Nat) → PlatformProgram Unit
  | 0 => return
  | rounds + 1 => do
      match ← receive subscriber with
      | none => return
      | some msg =>
          let written ← writeMessage msg.data
          if stopsOnError ∧ !written then
            return
          else
            passOn stopsOnError subscriber rounds

/-- The goroutine that `Produce` starts. -/
def readMessages (publishes : Bytes → Msg) : (rounds : Nat) → PlatformProgram Unit
  | 0 => return
  | rounds + 1 => do
      match ← readMessage with
      | none => return
      | some msg =>
          if ← publish (publishes msg) then
            readMessages publishes rounds
          else
            return

/-! ### The handlers -/

def sync (client : OperatorClient) (r : HttpRequest) : PlatformProgram Answer := do
  let target := parsePath r.path
  match ← activateFunction client target.1 target.2 with
  | .error err => return .error 400 (.activation err)
  | .ok info =>
      if !validateMethod r.method info.method then
        return .methodNotAllowed info.method.toUpper
      else if info.isAsync then
        match ← submitRequest r info.language with
        | .error failure => return .error 400 failure
        | .ok _ => return .accepted
      else if info.serviceName ≠ "" ∧ 0 < info.servicePort then
        if ← proxy (proxyToRuntime r target.1 target.2 "default" info.serviceName
            info.servicePort) then
          return .proxied
        else
          return .error 502 .proxying
      else
        match ← submitRequest r info.language with
        | .error failure => return .error 400 failure
        | .ok req =>
            match ← reply req with
            | .error failure => return .error 500 failure
            | .ok res => return .reply res

/-- The subscription of a stream and its loop; the channel holds 32 results. -/
def streamResults (stopsOnError : Bool) (req : Req) (rounds : Nat) : PlatformProgram Answer := do
  match ← subscribe (subscribeSubject req) (some 32) with
  | none => return .error 400 .startingSubscriber
  | some subscriber =>
      passOn stopsOnError subscriber rounds
      unsubscribe subscriber
      return .streamed

def sse (client : OperatorClient) (r : HttpRequest) (rounds : Nat) : PlatformProgram Answer := do
  let target := parsePath r.path
  match ← activateFunction client target.1 target.2 with
  | .error err => return .error 400 (.activation err)
  | .ok info =>
      if !validateMethod r.method info.method then
        return .methodNotAllowed info.method.toUpper
      else
        match ← submitRequest r info.language with
        | .error failure => return .error 400 failure
        | .ok req => streamResults false req rounds

def ws (client : OperatorClient) (r : HttpRequest) (rounds : Nat) : PlatformProgram Answer := do
  let target := parsePath r.path
  match ← activateFunction client target.1 target.2 with
  | .error err => return .error 400 (.activation err)
  | .ok info =>
      if !validateMethod r.method info.method then
        return .methodNotAllowed info.method.toUpper
      else
        match ← produceRequest r info.language with
        | .error failure => return .error 400 failure
        | .ok req => streamResults true req rounds

end Ingestor

end Litefunctions
