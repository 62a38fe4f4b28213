import Litefunctions.VersionedStore

/-!
# Function objects and their runtimes

A Function object says which code runs under which project and whether it is
active until which time.  The runtime of a function is a Deployment and a
Service.  Functions of the dynamic languages share one runtime for each
language and project, all others have a runtime of their own.
-/

namespace Litefunctions

/-- A second; times and durations are in nanoseconds. -/
def second : Int := 1000000000

def minute : Int := 60 * second

/-- The text of a deprovision time: empty, a text that `time.Parse` rejects,
or an RFC 3339 text, which names a whole second. -/
inductive DeProvisionTime where
  | unset
  | malformed (text : String)
  | rfc3339 (unixSeconds : Int)
  deriving DecidableEq, Repr

namespace DeProvisionTime

/-- `Format(time.RFC3339)`. -/
def format (time : Int) : DeProvisionTime :=
  rfc3339 (time / second)

/-- `time.Parse(time.RFC3339, text)`. -/
def parse : DeProvisionTime → Option Int
  | unset => none
  | malformed _ => none
  | rfc3339 unixSeconds => some (unixSeconds * second)

/-- The lease ended before `now`. -/
def ExpiredAt (lease : DeProvisionTime) (now : Int) : Prop :=
  ∃ deprovisionTime, lease.parse = some deprovisionTime ∧ deprovisionTime < now

instance (lease : DeProvisionTime) (now : Int) : Decidable (lease.ExpiredAt now) :=
  match parsed : lease.parse with
  | none => isFalse fun ⟨_, parsedSome, _⟩ => by simp [parsed] at parsedSome
  | some deprovisionTime =>
      if ended : deprovisionTime < now then
        isTrue ⟨deprovisionTime, parsed, ended⟩
      else
        isFalse fun ⟨other, parsedSome, otherEnded⟩ =>
          ended (Option.some.inj (parsed.symm.trans parsedSome) ▸ otherEnded)

/-- A formatted time is at most a second early. -/
theorem parse_format (time : Int) :
    ∃ parsed, (format time).parse = some parsed ∧ parsed ≤ time ∧ time < parsed + second := by
  refine ⟨time / second * second, rfl, ?_, ?_⟩ <;> unfold second <;> omega

end DeProvisionTime

/-- The name of an object in the cluster. -/
structure NamespacedName where
  namespace_ : String
  name : String
  deriving DecidableEq, Repr

structure FunctionSpec where
  isActive : Bool
  isAsync : Bool
  deProvisionTime : DeProvisionTime
  language : String
  name : String
  method : String
  project : String
  gitCreds : String
  deriving DecidableEq, Repr

abbrev Function := Object NamespacedName FunctionSpec

namespace Function

/-- The function with a lease that ends at `time`. -/
def withLease (function : Function) (time : Int) : Function :=
  { function with
    content := { function.content with deProvisionTime := .format time } }

def setActive (function : Function) (isActive : Bool) : Function :=
  { function with content := { function.content with isActive } }

end Function

/-- The fields of a merge patch that the operator sends. -/
structure FunctionPatch where
  isActive : Option Bool
  deriving DecidableEq, Repr

/-- `client.MergeFrom(old)` against the changed object: the fields of the
patch are those that differ. -/
def mergeFrom (old new : FunctionSpec) : FunctionPatch where
  isActive := if old.isActive = new.isActive then none else some new.isActive

def FunctionPatch.apply (patch : FunctionPatch) (spec : FunctionSpec) : FunctionSpec :=
  { spec with isActive := patch.isActive.getD spec.isActive }

/-! ### Names of runtimes -/

def isDynamicLanguage (lang : String) : Bool :=
  lang = "python" ∨ lang = "ts" ∨ lang = "lua"

def getDeploymentName (function : Function) : String :=
  if isDynamicLanguage function.content.language then
    s!"litefunctions-runtime-{function.content.language}-{function.content.project}"
  else
    s!"litefunctions-runtime-{function.content.language}-{function.content.project}-{function.key.name}"

def getServiceName (function : Function) : String :=
  if isDynamicLanguage function.content.language then
    s!"litefunctions-runtime-svc-{function.content.language}-{function.content.project}"
  else
    s!"litefunctions-runtime-svc-{function.content.language}-{function.content.project}-{function.key.name}"

/-! ### Deployments and services -/

/-- The settings of the operator that its objects use. -/
structure Settings where
  registry : String
  vcsUser : String
  vcsBaseUrl : String
  gitTokenSecretName : String
  gitTokenSecretKey : String
  pullSecret : String
  dbSecretName : String
  dbSecretKey : String
  redisUrl : String
  redisPassword : String
  natsUrl : String
  keepWarmDuration : Int
  deriving DecidableEq, Repr

/-- The settings of an operator that is not configured. -/
def defaultSettings : Settings where
  registry := "ghcr.io"
  vcsUser := "lwsrepos"
  vcsBaseUrl := "https://github.com"
  gitTokenSecretName := "litefunctions-admin-token"
  gitTokenSecretKey := "token"
  pullSecret := "ghcr-secret"
  dbSecretName := "litefunctions-pguser-litefunctions"
  dbSecretKey := "pgbouncer-uri"
  redisUrl := "redis://litefunctions-valkey-cluster:6379"
  redisPassword := ""
  natsUrl := "nats://litefunctions-nats:4222"
  keepWarmDuration := 5 * minute

inductive EnvValue where
  | value (text : String)
  | secretKeyRef (name key : String)
  deriving DecidableEq, Repr

structure Deployment where
  labels : List (String × String)
  replicas : Nat
  /-- The selector of the pods, and the labels that the pods get. -/
  matchLabels : List (String × String)
  podLabels : List (String × String)
  imagePullSecret : String
  image : String
  containerPort : Nat
  env : List (String × EnvValue)
  /-- The function that controls the object. -/
  owner : Option NamespacedName
  deriving DecidableEq, Repr

structure Service where
  labels : List (String × String)
  selector : List (String × String)
  port : Nat
  clusterIP : String
  clusterIPs : List String
  owner : Option NamespacedName
  deriving DecidableEq, Repr

/-- The labels of a runtime. -/
def runtimeLabels (function : Function) : List (String × String) :=
  let labels :=
    [("app", "runtime"), ("lang", function.content.language), ("project", function.content.project)]
  if isDynamicLanguage function.content.language then
    labels
  else
    labels ++ [("function", function.content.name)]

def runtimeImage (cfg : Settings) (function : Function) : String :=
  match function.content.language with
  | "python" => "ashupednekar535/litefunctions-runtime-py:latest"
  | "ts" => "ashupednekar535/litefunctions-runtime-ts:latest"
  | "lua" => "ashupednekar535/litefunctions-runtime-lua:latest"
  | language =>
      s!"{cfg.registry}/{cfg.vcsUser}/runtime-{language}-{function.content.project}-{function.key.name}:latest"

def newDeployment (cfg : Settings) (function : Function) : Deployment where
  labels := runtimeLabels function
  replicas := 1
  matchLabels := runtimeLabels function
  podLabels := runtimeLabels function
  imagePullSecret := cfg.pullSecret
  image := runtimeImage cfg function
  containerPort := 8080
  env :=
    [("DATABASE_URL", .secretKeyRef cfg.dbSecretName cfg.dbSecretKey),
      ("GIT_USER", .value cfg.vcsUser),
      ("VCS_BASE_URL", .value cfg.vcsBaseUrl),
      ("PROJECT", .value function.content.project),
      ("REDIS_URL", .value cfg.redisUrl),
      ("REDIS_PASSWORD", .value cfg.redisPassword),
      ("NATS_URL", .value cfg.natsUrl),
      ("HTTP_PORT", .value "8080")] ++
    (if isDynamicLanguage function.content.language then
      []
    else
      [("NAME", .value function.content.name)]) ++
    [("GIT_TOKEN", .secretKeyRef cfg.gitTokenSecretName cfg.gitTokenSecretKey)]
  owner := none

def newService (function : Function) : Service where
  labels := runtimeLabels function
  selector := runtimeLabels function
  port := 8080
  clusterIP := ""
  clusterIPs := []
  owner := none

end Litefunctions
