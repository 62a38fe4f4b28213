import Litefunctions.ClusterCalls

/-!
# The function service of the operator

The operator's client package reads and writes Function objects, and its gRPC
server offers this to the portal and the ingestor.  Every lease is renewed by
reading the object and updating it, once.
-/

namespace Litefunctions

namespace Operator

/-- `fmt.Errorf(context + "%w", cause)`. -/
structure CallError where
  context : String
  cause : StoreError
  deriving DecidableEq, Repr

/-- `GetFunction` of the client package. -/
def getFunction (namespace_ name : String) : ApiProgram (Except CallError Function) := do
  match ← Api.getFunction ⟨namespace_, name⟩ with
  | .error err => return .error ⟨"failed to get function: ", err⟩
  | .ok function => return .ok function

def isFunctionActive (namespace_ name : String) : ApiProgram (Except CallError Bool) := do
  match ← getFunction namespace_ name with
  | .error err => return .error err
  | .ok function => return .ok function.content.isActive

def markFunctionActive (namespace_ name : String) (keepWarmDuration : Int) :
    ApiProgram (Except CallError Function) := do
  match ← getFunction namespace_ name with
  | .error err => return .error err
  | .ok function =>
      let now ← Api.now
      let deprovisionTime := now + keepWarmDuration
      match ← Api.updateFunction ((function.setActive true).withLease deprovisionTime) with
      | .error err => return .error ⟨"failed to update function: ", err⟩
      | .ok updated => return .ok updated

def extendFunctionLease (namespace_ name : String) (keepWarmDuration : Int) :
    ApiProgram (Except CallError Bool) := do
  match ← getFunction namespace_ name with
  | .error err => return .error err
  | .ok function =>
      if !function.content.isActive then
        return .ok false
      else
        let now ← Api.now
        let deprovisionTime := now + keepWarmDuration
        match ← Api.updateFunction (function.withLease deprovisionTime) with
        | .error err => return .error ⟨"failed to extend function lease: ", err⟩
        | .ok _ => return .ok true

def markFunctionInactive (namespace_ name : String) : ApiProgram (Except CallError Unit) := do
  match ← getFunction namespace_ name with
  | .error err => return .error err
  | .ok function =>
      if !function.content.isActive then
        return .ok ()
      else
        match ← Api.updateFunction (function.setActive false) with
        | .error err => return .error ⟨"failed to update function: ", err⟩
        | .ok _ => return .ok ()

/-- `CreateFunctionIfNotExists`; the git credentials are ignored. -/
def createFunctionIfNotExists (namespace_ name project language _gitCreds : String)
    (isAsync : Bool) : ApiProgram (Except CallError Bool) := do
  match ← Api.getFunction ⟨namespace_, name⟩ with
  | .ok _ => return .ok false
  | .error .notFound =>
      let spec : FunctionSpec :=
        { isActive := false
          isAsync := isAsync
          deProvisionTime := .unset
          language := language
          name := name
          method := ""
          project := project
          gitCreds := "" }
      match ← Api.createFunction ⟨namespace_, name⟩ spec with
      | .error err => return .error ⟨"failed to create function: ", err⟩
      | .ok _ => return .ok true
  | .error err => return .error ⟨"failed to check function: ", err⟩

/-! ### The gRPC server -/

/-- The status of a failed remote call. -/
inductive Status where
  | invalidArgument (message : String)
  | internal (message : String) (err : CallError)
  deriving DecidableEq, Repr

structure CreateFunctionRequest where
  namespace_ : String
  name : String
  project : String
  language : String
  gitCreds : String
  isAsync : Bool
  deriving DecidableEq, Repr

structure ActivateResponse where
  isActive : Bool
  language : String
  isAsync : Bool
  project : String
  name : String
  method : String
  serviceName : String
  servicePort : Nat
  deriving DecidableEq, Repr

/-- The result of the remote call `CreateFunction`. -/
def createFunction (req : CreateFunctionRequest) : ApiProgram (Except Status Bool) := do
  if req.namespace_ = "" ∨ req.name = "" ∨ req.project = "" ∨ req.language = "" then
    return .error (.invalidArgument "namespace, name, project, and language are required")
  else
    match ← createFunctionIfNotExists req.namespace_ req.name req.project req.language
        req.gitCreds req.isAsync with
    | .error err => return .error (.internal "Failed to create function: " err)
    | .ok created => return .ok created

/-- The configured duration, or five minutes where that is not positive. -/
def keepWarm (keepWarmDuration : Int) : Int :=
  if keepWarmDuration ≤ 0 then 5 * minute else keepWarmDuration

def activateResponse (fn : Function) : ActivateResponse where
  isActive := true
  language := fn.content.language
  isAsync := fn.content.isAsync
  project := fn.content.project
  name := fn.content.name
  method := fn.content.method
  serviceName := getServiceName fn
  servicePort := 8080

def activate (keepWarmDuration : Int) (namespace_ name : String) :
    ApiProgram (Except Status ActivateResponse) := do
  if namespace_ = "" ∨ name = "" then
    return .error (.invalidArgument "namespace and name are required")
  else
    match ← markFunctionActive namespace_ name (keepWarm keepWarmDuration) with
    | .error err => return .error (.internal "Failed to activate function: " err)
    | .ok fn => return .ok (activateResponse fn)

def getStatus (keepWarmDuration : Int) (namespace_ name : String) :
    ApiProgram (Except Status Bool) := do
  if namespace_ = "" ∨ name = "" then
    return .error (.invalidArgument "namespace and name are required")
  else
    match ← isFunctionActive namespace_ name with
    | .error err => return .error (.internal "Failed to check function status: " err)
    | .ok false => return .ok false
    | .ok true =>
        match ← extendFunctionLease namespace_ name (keepWarm keepWarmDuration) with
        | .error err => return .error (.internal "Failed to extend function lease: " err)
        | .ok _ => return .ok true

end Operator

end Litefunctions
