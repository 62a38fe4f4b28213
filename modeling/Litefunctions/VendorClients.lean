import Litefunctions.PortalRequests

/-!
# Clients of the VCS vendors

The clients for GitHub and Gitea send the same requests to different paths, and
make one value or one error text of what comes back.  They decode the runs of
workflows into one form.
-/

namespace Litefunctions

namespace Portal

inductive VendorType where
  | github
  | gitea
  deriving DecidableEq, Repr

/-! ### Runs of workflows -/

/-- One of the `workflow_runs` in the answer of a vendor. -/
structure VendorRun where
  id : Int
  name : String
  displayTitle : String
  status : String
  conclusion : String
  headBranch : String
  event : String
  createdAt : String
  updatedAt : String
  deriving DecidableEq, Repr

/-- The answer of a vendor about the actions of a repository. -/
structure VendorActions where
  totalCount : Int
  workflowRuns : List VendorRun
  deriving DecidableEq, Repr

structure WorkflowRun where
  id : Int
  name : String
  displayTitle : String
  status : String
  conclusion : String
  branch : String
  event : String
  createdAt : String
  updatedAt : String
  functionName : String
  currentJob : String
  currentStep : String
  deriving DecidableEq, Repr

structure ActionsProgress where
  totalCount : Int
  runs : List WorkflowRun
  deriving DecidableEq, Repr

namespace VendorType

/-- The run as the client of the vendor decodes it: for GitHub without a title,
for Gitea without a conclusion. -/
def workflowRun (vendor : VendorType) (run : VendorRun) : WorkflowRun where
  id := run.id
  name := run.name
  displayTitle :=
    match vendor with
    | github => ""
    | gitea => run.displayTitle
  status := run.status
  conclusion :=
    match vendor with
    | github => run.conclusion
    | gitea => ""
  branch := run.headBranch
  event := run.event
  createdAt := run.createdAt
  updatedAt := run.updatedAt
  functionName := ""
  currentJob := ""
  currentStep := ""

end VendorType

def maxLookups : Nat := 6

section Progress

variable (toLower : Char → Char) (getRunCurrentStep : Nat → Int → Option (String × String))

/-- Look up the job and the step of unfinished runs; `lookups` were made before. -/
def populateCurrentSteps (lookups : Nat) : List WorkflowRun → List WorkflowRun
  | [] => []
  | run :: runs =>
      if maxLookups ≤ lookups then run :: runs
      else if run.status.map toLower ∉ ["in_progress", "queued", "waiting", "running"] then
        run :: populateCurrentSteps lookups runs
      else
        let stepped :=
          match getRunCurrentStep lookups run.id with
          | some (job, step) => { run with currentJob := job, currentStep := step }
          | none => run
        stepped :: populateCurrentSteps (lookups + 1) runs

/-- A run, or that run with the job and the step of one lookup. -/
def ShowsStep (run shown : WorkflowRun) : Prop :=
  shown = run ∨ ∃ lookup job step, getRunCurrentStep lookup run.id = some (job, step) ∧
    shown = { run with currentJob := job, currentStep := step }

/-- Each run stays in its place, and only its job and its step change. -/
theorem exists_shown_of_populated {runs : List WorkflowRun} {index : Nat} {run : WorkflowRun}
    (isRun : runs[index]? = some run) (lookups : Nat) :
    ∃ shown, (populateCurrentSteps toLower getRunCurrentStep lookups runs)[index]? =
      some shown ∧ ShowsStep getRunCurrentStep run shown := by
  induction runs generalizing index lookups with
  | nil => cases isRun
  | cons first runs ih =>
      rw [populateCurrentSteps]
      split
      · exact ⟨run, isRun, .inl rfl⟩
      · split
        · cases index with
          | zero => exact ⟨run, isRun, .inl rfl⟩
          | succ index => exact ih isRun lookups
        · cases index with
          | zero =>
              obtain rfl := Option.some.inj isRun
              cases isStep : getRunCurrentStep lookups first.id with
              | none => exact ⟨first, by simp, .inl rfl⟩
              | some stepped =>
                  exact ⟨_, by simp, .inr ⟨lookups, stepped.1, stepped.2, isStep, rfl⟩⟩
          | succ index => exact ih isRun (lookups + 1)

/-- The progress that a client makes of the answer of its vendor. -/
def getActionsProgress (vendor : VendorType) (actions : VendorActions) : ActionsProgress where
  totalCount := actions.totalCount
  runs := populateCurrentSteps toLower getRunCurrentStep 0
    (actions.workflowRuns.map vendor.workflowRun)

end Progress

/-! ### Requests to a vendor -/

/-- What becomes of a request of a client. -/
inductive HttpOutcome where
  /-- `http.NewRequestWithContext` fails. -/
  | notCreated (cause : String)
  /-- The client fails, with an error around the text of the URL. -/
  | failed (before after : String)
  | unread (status : Nat) (cause : String)
  /-- An answer, and the name that its body has in a field, or an error of its JSON. -/
  | answered (status : Nat) (body : String) (decoded : Except String String)

structure VendorClient where
  vendor : VendorType
  vcsBaseUrl : String
  owner : String
  /-- The text of a URL in an error of `http.Client`. -/
  urlText : String → String

namespace VendorClient

variable (client : VendorClient)

def baseURL : String :=
  match client.vendor with
  | .github => "https://api.github.com"
  | .gitea => client.vcsBaseUrl

def reposURL : String :=
  match client.vendor with
  | .github => s!"{client.baseURL}/user/repos"
  | .gitea => s!"{client.baseURL}/api/v1/user/repos"

def hooksURL (repo : String) : String :=
  match client.vendor with
  | .github => s!"{client.baseURL}/repos/{client.owner}/{repo}/hooks"
  | .gitea => s!"{client.baseURL}/api/v1/repos/{client.owner}/{repo}/hooks"

/-- The name, or the text of the error, that a request to a URL ends with. -/
def answer (url : String) : HttpOutcome → Except String String
  | .notCreated cause => .error s!"failed to create request: {cause}"
  | .failed before after => .error s!"failed to execute request: {before}{client.urlText url}{after}"
  | .unread _ cause => .error s!"failed to read response: {cause}"
  | .answered status body decoded =>
      if status ≠ 201 then
        .error s!"unexpected status code {status}: {body}"
      else
        match decoded with
        | .error cause => .error s!"failed to unmarshal response: {cause}"
        | .ok name => .ok name

def createRepo (outcome : HttpOutcome) : Except String String :=
  client.answer client.reposURL outcome

def addWebhook (repo : String) (outcome : HttpOutcome) : Except String String :=
  client.answer (client.hooksURL repo) outcome

end VendorClient

end Portal

end Litefunctions
