import Litefunctions.BrokerRequests
import Litefunctions.ClusterCalls
import Litefunctions.FunctionService
import Litefunctions.MessageBroker

/-!
# Calls of the processes of the platform

Ingestor, operator and runtimes meet in two places, the cluster and the
broker.  Everything outside, the clients of the ingestor and the services that
it proxies to, is part of the circumstances of a call.  A goroutine is a
process that waits until another one has started it.
-/

namespace Litefunctions

/-- A request that `proxyToRuntime` sends to a service. -/
structure ProxyRequest where
  service : String
  namespace_ : String
  port : Nat
  method : String
  path : String
  functionName : String
  project : String
  deriving DecidableEq, Repr

/-- What the processes of the platform share; the last two list what started
goroutines have to do. -/
structure Platform where
  cluster : Cluster
  broker : Broker Msg
  readers : List (Bytes → Msg)
  workers : List (List Msg)

inductive PlatformCall where
  | api (call : ApiCall)
  | broker (call : BrokerCall Msg)
  /-- `Activate` of an operator of which nothing is known. -/
  | activate (namespace_ name : String)
  | readBody
  | upgrade
  | readMessage
  | writeMessage (data : Bytes)
  | proxy (request : ProxyRequest)
  | startReader (publishes : Bytes → Msg)
  | awaitReader (index : Nat)
  | startWorker (outs : List Msg)
  | awaitWorker (index : Nat)
  | awaitDeployment (key : NamespacedName)

namespace PlatformCall

abbrev Response : PlatformCall → Type
  | api call => call.Response
  | broker call => call.Response
  | activate _ _ => Except Operator.Status Operator.ActivateResponse
  | readBody => Option Bytes
  | upgrade => Bool
  | readMessage => Option Bytes
  | writeMessage _ => Bool
  | proxy _ => Bool
  | startReader _ => Unit
  | awaitReader _ => Bytes → Msg
  | startWorker _ => Unit
  | awaitWorker _ => List Msg
  | awaitDeployment _ => Unit

/-- What the environment decides at a call. -/
structure Circumstance where
  api : ApiCall.Circumstance := ⟨false, 0⟩
  refused : Bool := false
  data : Bytes := []
  activation : Except Operator.Status Operator.ActivateResponse :=
    .error (.invalidArgument "")

/-- The response to a call and the platform after it; none while the call
waits. -/
def execute (call : PlatformCall) (circumstance : Circumstance) (platform : Platform) :
    Option (call.Response × Platform) :=
  match call with
  | api call =>
      let answered := call.answer circumstance.api.unavailable circumstance.api.elapsed
        platform.cluster
      some (answered.1, { platform with cluster := answered.2 })
  | broker call =>
      match call.execute circumstance.refused platform.broker with
      | none => none
      | some (response, after) => some (response, { platform with broker := after })
  | activate _ _ => some (circumstance.activation, platform)
  | readBody => some (if circumstance.refused then none else some circumstance.data, platform)
  | upgrade => some (!circumstance.refused, platform)
  | readMessage => some (if circumstance.refused then none else some circumstance.data, platform)
  | writeMessage _ => some (!circumstance.refused, platform)
  | proxy _ => some (!circumstance.refused, platform)
  | startReader publishes =>
      some ((), { platform with readers := platform.readers ++ [publishes] })
  | awaitReader index => platform.readers[index]?.map fun publishes => (publishes, platform)
  | startWorker outs => some ((), { platform with workers := platform.workers ++ [outs] })
  | awaitWorker index => platform.workers[index]?.map fun outs => (outs, platform)
  | awaitDeployment key =>
      (platform.cluster.deployments.find? key).map fun _ => ((), platform)

end PlatformCall

/-- A program of a process of the platform. -/
abbrev PlatformProgram := Program PlatformCall PlatformCall.Response

abbrev PlatformHistory := List (Program.Answered PlatformCall PlatformCall.Response)

abbrev PlatformEvent (Pid : Type) := Event Pid PlatformCall PlatformCall.Response Platform

namespace Platform

open Program

/-- A program of the operator, run on the platform. -/
def operate {Result : Type} (program : ApiProgram Result) : PlatformProgram Result :=
  program.lift .api fun _ response => response

abbrev publish (msg : Msg) : PlatformProgram Bool :=
  perform (PlatformCall.broker (.publish msg.subject msg))

abbrev subscribe (pattern : String) (capacity : Option Nat) : PlatformProgram (Option Nat) :=
  perform (PlatformCall.broker (.subscribe pattern capacity))

abbrev unsubscribe (id : Nat) : PlatformProgram Unit :=
  perform (PlatformCall.broker (.unsubscribe id))

/-- The next message of a subscription, none when the wait is over. -/
abbrev receive (id : Nat) : PlatformProgram (Option Msg) :=
  perform (PlatformCall.broker (.receive id))

abbrev activate (namespace_ name : String) :
    PlatformProgram (Except Operator.Status Operator.ActivateResponse) :=
  perform (PlatformCall.activate namespace_ name)

abbrev readBody : PlatformProgram (Option Bytes) :=
  perform PlatformCall.readBody

abbrev upgrade : PlatformProgram Bool :=
  perform PlatformCall.upgrade

abbrev readMessage : PlatformProgram (Option Bytes) :=
  perform PlatformCall.readMessage

abbrev writeMessage (data : Bytes) : PlatformProgram Bool :=
  perform (PlatformCall.writeMessage data)

abbrev proxy (request : ProxyRequest) : PlatformProgram Bool :=
  perform (PlatformCall.proxy request)

abbrev startReader (publishes : Bytes → Msg) : PlatformProgram Unit :=
  perform (PlatformCall.startReader publishes)

abbrev awaitReader (index : Nat) : PlatformProgram (Bytes → Msg) :=
  perform (PlatformCall.awaitReader index)

abbrev startWorker (outs : List Msg) : PlatformProgram Unit :=
  perform (PlatformCall.startWorker outs)

abbrev awaitWorker (index : Nat) : PlatformProgram (List Msg) :=
  perform (PlatformCall.awaitWorker index)

abbrev awaitDeployment (key : NamespacedName) : PlatformProgram Unit :=
  perform (PlatformCall.awaitDeployment key)

abbrev addStream (name : String) (subjects : List String) : PlatformProgram Bool :=
  perform (PlatformCall.broker (.addStream name subjects))

abbrev pullSubscribe (stream filter : String) : PlatformProgram (Option Nat) :=
  perform (PlatformCall.broker (.pullSubscribe stream filter))

/-- The next message of a consumer of a stream. -/
abbrev fetch (id : Nat) : PlatformProgram (Option Msg) :=
  perform (PlatformCall.broker (.fetch id))

end Platform

end Litefunctions
