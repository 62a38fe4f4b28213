import Litefunctions.FunctionObjects
import Litefunctions.StoreCalls

/-!
# Calls of the operator to the cluster

The API server answers one call at a time.  Any call may be unavailable, and
the clock advances between its readings.
-/

namespace Litefunctions

/-- What the processes of the operator share. -/
structure Cluster where
  functions : Store NamespacedName FunctionSpec
  deployments : Store NamespacedName Deployment
  services : Store NamespacedName Service
  clock : Int

abbrev FunctionCall := StoreCall NamespacedName FunctionSpec FunctionPatch

abbrev DeploymentCall := StoreCall NamespacedName Deployment Empty

abbrev ServiceCall := StoreCall NamespacedName Service Empty

/-- A call to the API server, or `time.Now()`. -/
inductive ApiCall where
  | functions (call : FunctionCall)
  | deployments (call : DeploymentCall)
  | services (call : ServiceCall)
  | now

namespace ApiCall

abbrev Response : ApiCall → Type
  | functions call => call.Response
  | deployments call => call.Response
  | services call => call.Response
  | now => Int

/-- What the environment decides at a call: whether the API server is
unavailable, and how long ago the clock was last read. -/
structure Circumstance where
  unavailable : Bool
  elapsed : Nat
  deriving DecidableEq, Repr

/-- The response to a call and the cluster after it. -/
def answer (unavailable : Bool) (elapsed : Nat) : (call : ApiCall) → Cluster →
    call.Response × Cluster
  | functions call, cluster =>
      if unavailable then (.error .unavailable, cluster)
      else
        let answered := call.execute FunctionPatch.apply cluster.functions
        (answered.1, { cluster with functions := answered.2 })
  | deployments call, cluster =>
      if unavailable then (.error .unavailable, cluster)
      else
        let answered := call.execute (fun edit => edit.elim) cluster.deployments
        (answered.1, { cluster with deployments := answered.2 })
  | services call, cluster =>
      if unavailable then (.error .unavailable, cluster)
      else
        let answered := call.execute (fun edit => edit.elim) cluster.services
        (answered.1, { cluster with services := answered.2 })
  | now, cluster =>
      (cluster.clock + elapsed, { cluster with clock := cluster.clock + elapsed })

/-- Every call of the operator is answered at once. -/
def execute (call : ApiCall) (circumstance : Circumstance) (cluster : Cluster) :
    Option (call.Response × Cluster) :=
  some (call.answer circumstance.unavailable circumstance.elapsed cluster)

end ApiCall

/-- A program of the operator. -/
abbrev ApiProgram := Program ApiCall ApiCall.Response

abbrev ApiHistory := List (Program.Answered ApiCall ApiCall.Response)

abbrev ClusterEvent (Pid : Type) := Event Pid ApiCall ApiCall.Response Cluster

namespace Api

open Program ApiCall

abbrev getFunction (key : NamespacedName) : ApiProgram (Except StoreError Function) :=
  perform (functions (.get key))

/-- The functions of a namespace, in the order of the API server. -/
abbrev listFunctions : ApiProgram (Except StoreError (List Function)) :=
  perform (functions .list)

abbrev createFunction (key : NamespacedName) (spec : FunctionSpec) :
    ApiProgram (Except StoreError Function) :=
  perform (functions (.create key spec))

abbrev updateFunction (function : Function) : ApiProgram (Except StoreError Function) :=
  perform (functions (.update function))

abbrev patchFunction (key : NamespacedName) (patch : FunctionPatch) :
    ApiProgram (Except StoreError Function) :=
  perform (functions (.patch key patch))

abbrev getDeployment (key : NamespacedName) :
    ApiProgram (Except StoreError (Object NamespacedName Deployment)) :=
  perform (deployments (.get key))

abbrev createDeployment (key : NamespacedName) (deployment : Deployment) :
    ApiProgram (Except StoreError (Object NamespacedName Deployment)) :=
  perform (deployments (.create key deployment))

abbrev updateDeployment (deployment : Object NamespacedName Deployment) :
    ApiProgram (Except StoreError (Object NamespacedName Deployment)) :=
  perform (deployments (.update deployment))

abbrev deleteDeployment (key : NamespacedName) : ApiProgram (Except StoreError Unit) :=
  perform (deployments (.delete key))

abbrev getService (key : NamespacedName) :
    ApiProgram (Except StoreError (Object NamespacedName Service)) :=
  perform (services (.get key))

abbrev createService (key : NamespacedName) (service : Service) :
    ApiProgram (Except StoreError (Object NamespacedName Service)) :=
  perform (services (.create key service))

abbrev updateService (service : Object NamespacedName Service) :
    ApiProgram (Except StoreError (Object NamespacedName Service)) :=
  perform (services (.update service))

abbrev deleteService (key : NamespacedName) : ApiProgram (Except StoreError Unit) :=
  perform (services (.delete key))

abbrev now : ApiProgram Int :=
  perform ApiCall.now

end Api

end Litefunctions
