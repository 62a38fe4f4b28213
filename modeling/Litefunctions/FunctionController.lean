import Litefunctions.ClusterCalls

/-!
# Reconciliation and cleanup of runtimes

`Reconcile` creates the runtime of an active function and renews its lease, or
deletes the runtime of an inactive one.  The cleanup command lists the
functions once and deactivates, one after another, those whose lease was over
when it read the clock.
-/

namespace Litefunctions

namespace Operator

/-- The functions of a list that are in a namespace; the empty name stands for
all namespaces. -/
def inNamespace (namespace_ : String) (items : List Function) : List Function :=
  if namespace_ = "" then items
  else items.filter (·.key.namespace_ = namespace_)

/-- Another active function of the same project and language. -/
def sharesRuntime (function fn : Function) : Bool :=
  fn.key.name ≠ function.key.name ∧ fn.content.project = function.content.project ∧
    fn.content.language = function.content.language

def hasOtherActiveFunctionUsingSharedRuntime (function : Function) :
    ApiProgram (Except StoreError Bool) := do
  if !isDynamicLanguage function.content.language then
    return .ok false
  else
    match ← Api.listFunctions with
    | .error err => return .error err
    | .ok items =>
        return .ok ((inNamespace function.key.namespace_ items).any fun fn =>
          sharesRuntime function fn && fn.content.isActive)

/-- `client.IgnoreNotFound`. -/
def ignoreNotFound : StoreError → Except StoreError Unit
  | .notFound => .ok ()
  | err => .error err

/-- Get a Deployment and delete it; that there is none is no error. -/
def deleteDeployment (key : NamespacedName) : ApiProgram (Except StoreError Unit) := do
  match ← Api.getDeployment key with
  | .ok existing => Api.deleteDeployment existing.key
  | .error err => return ignoreNotFound err

/-- Get a Service and delete it; that there is none is no error. -/
def deleteService (key : NamespacedName) : ApiProgram (Except StoreError Unit) := do
  match ← Api.getService key with
  | .ok existingSvc => Api.deleteService existingSvc.key
  | .error err => return ignoreNotFound err

/-! ### Reconcile -/

/-- Delete the runtime of an inactive function. -/
def deleteRuntime (function : Function) : ApiProgram (Except StoreError Unit) := do
  match ← hasOtherActiveFunctionUsingSharedRuntime function with
  | .error err => return .error err
  | .ok true => return .ok ()
  | .ok false =>
      match ← deleteDeployment ⟨function.key.namespace_, getDeploymentName function⟩ with
      | .error err => return .error err
      | .ok () => deleteService ⟨function.key.namespace_, getServiceName function⟩

/-- `SetControllerReference`, which static languages use. -/
def runtimeOwner (function : Function) : Option NamespacedName :=
  if isDynamicLanguage function.content.language then none else some function.key

def createOrUpdateDeployment (cfg : Settings) (function : Function) :
    ApiProgram (Except StoreError Unit) := do
  let deploy := { newDeployment cfg function with owner := runtimeOwner function }
  let key : NamespacedName := ⟨function.key.namespace_, getDeploymentName function⟩
  match ← Api.getDeployment key with
  | .error .notFound => return (← Api.createDeployment key deploy).map fun _ => ()
  | .ok existing => return (← Api.updateDeployment ⟨key, existing.version, deploy⟩).map fun _ => ()
  | .error err => return .error err

def createOrUpdateService (function : Function) : ApiProgram (Except StoreError Unit) := do
  let svc := { newService function with owner := runtimeOwner function }
  let key : NamespacedName := ⟨function.key.namespace_, getServiceName function⟩
  match ← Api.getService key with
  | .error .notFound => return (← Api.createService key svc).map fun _ => ()
  | .ok existingSvc =>
      let svc :=
        { svc with
          clusterIP := existingSvc.content.clusterIP
          clusterIPs := existingSvc.content.clusterIPs }
      return (← Api.updateService ⟨key, existingSvc.version, svc⟩).map fun _ => ()
  | .error err => return .error err

/-- `Reconcile` for the function with this name. -/
def reconcile (cfg : Settings) (key : NamespacedName) :
    ApiProgram (Except StoreError Unit) := do
  match ← Api.getFunction key with
  | .error err => return ignoreNotFound err
  | .ok function =>
      if !function.content.isActive then
        deleteRuntime function
      else
        match ← createOrUpdateDeployment cfg function with
        | .error err => return .error err
        | .ok () =>
            match ← createOrUpdateService function with
            | .error err => return .error err
            | .ok () =>
                let now ← Api.now
                let deprovisionTime := now + cfg.keepWarmDuration
                return (← Api.updateFunction
                  (function.withLease deprovisionTime)).map fun _ => ()

/-! ### Cleanup -/

/-- The patch that deactivates a function. -/
def deactivation (function : Function) : FunctionPatch :=
  mergeFrom function.content (function.setActive false).content

/-- The function that the pass goes on with: what the patch returned, or the
listed one, made inactive, where the patch failed. -/
def afterPatch (function : Function) : Except StoreError Function → Function
  | .error _ => function.setActive false
  | .ok patched => patched

/-- Deactivate a function whose lease is over, and delete its runtime unless
another function uses it.  Failures of the patch and of the deletions are only
logged. -/
def deactivate (function : Function) : ApiProgram Unit := do
  let patched := afterPatch function (← Api.patchFunction function.key (deactivation function))
  match ← hasOtherActiveFunctionUsingSharedRuntime patched with
  | .error _ => return
  | .ok true => return
  | .ok false =>
      let _ ← deleteDeployment ⟨patched.key.namespace_, getDeploymentName patched⟩
      let _ ← deleteService ⟨patched.key.namespace_, getServiceName patched⟩

/-- The body of the cleanup loop. -/
def cleanupFunction (now : Int) (function : Function) : ApiProgram Unit := do
  if function.content.isActive ∧ function.content.deProvisionTime ≠ .unset then
    match function.content.deProvisionTime.parse with
    | none => return
    | some deprovisionTime =>
        if deprovisionTime < now then
          deactivate function

def cleanupFunctions (now : Int) : List Function → ApiProgram Unit
  | [] => return
  | function :: items => do
      cleanupFunction now function
      cleanupFunctions now items

/-- `runCleanup`; the error stands for `os.Exit(1)`. -/
def runCleanup (namespace_ : String) : ApiProgram (Except StoreError Unit) := do
  match ← Api.listFunctions with
  | .error err => return .error err
  | .ok items =>
      let now ← Api.now
      cleanupFunctions now (inNamespace namespace_ items)
      return .ok ()

end Operator

end Litefunctions
