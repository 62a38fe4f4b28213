import Litefunctions.PrioritySearches
import Litefunctions.RequestHandlers
import Litefunctions.VendorClients

/-!
# Current steps of workflow runs

The client of each vendor asks for the jobs of an unfinished run, and picks one
job and one of its steps for the progress: what runs is preferred to what waits.
The two clients have their own copies of the loops that choose.
-/

namespace Litefunctions

namespace Portal

open PrioritySearches
open Ingestor (equalFold)

/-- A step of a job, with the fields of `ghStep` and of `giteaStep`. -/
structure JobStep where
  name : String
  status : String
  deriving DecidableEq, Repr

/-- One of the `jobs` in the answer of a vendor, with the fields of `ghJob` and of
`giteaJob`. -/
structure Job where
  name : String
  status : String
  steps : List JobStep
  deriving DecidableEq, Repr

namespace GitHubClient

def pickStep (steps : List JobStep) : String := Id.run do
  if isEmpty : steps = [] then
    return ""
  else
    for step in steps do
      if equalFold step.status "in_progress" || equalFold step.status "running" then
        return step.name
    for step in steps do
      if equalFold step.status "queued" || equalFold step.status "waiting" then
        return step.name
    return (steps.getLast isEmpty).name

def pickJobStep (jobs : List Job) : String × String := Id.run do
  if isEmpty : jobs = [] then
    return ("", "")
  else
    for job in jobs do
      if equalFold job.status "in_progress" || equalFold job.status "running" then
        return (job.name, pickStep job.steps)
    for job in jobs do
      if equalFold job.status "queued" || equalFold job.status "waiting" then
        return (job.name, pickStep job.steps)
    return ((jobs.head isEmpty).name, pickStep (jobs.head isEmpty).steps)

/-- The current step of a run; the jobs are those of the answer, if it has the
status 200 and can be read. -/
def getRunCurrentStep (listed : Option (List Job)) : Option (String × String) := do
  let jobs ← listed
  let (jobName, stepName) := pickJobStep jobs
  if jobName = "" ∧ stepName = "" then none else some (jobName, stepName)

end GitHubClient

namespace GiteaClient

def pickStep (steps : List JobStep) : String := Id.run do
  if isEmpty : steps = [] then
    return ""
  else
    for step in steps do
      if equalFold step.status "in_progress" || equalFold step.status "running" then
        return step.name
    for step in steps do
      if equalFold step.status "queued" || equalFold step.status "waiting" then
        return step.name
    return (steps.getLast isEmpty).name

def pickGiteaJobStep (jobs : List Job) : String × String := Id.run do
  if isEmpty : jobs = [] then
    return ("", "")
  else
    for job in jobs do
      if equalFold job.status "in_progress" || equalFold job.status "running" then
        return (job.name, pickStep job.steps)
    for job in jobs do
      if equalFold job.status "queued" || equalFold job.status "waiting" then
        return (job.name, pickStep job.steps)
    return ((jobs.head isEmpty).name, pickStep (jobs.head isEmpty).steps)

def getRunCurrentStep (listed : Option (List Job)) : Option (String × String) := do
  let jobs ← listed
  let (jobName, stepName) := pickGiteaJobStep jobs
  if jobName = "" ∧ stepName = "" then none else some (jobName, stepName)

end GiteaClient

/-! ### The choice -/

def isRunning (status : String) : Bool :=
  equalFold status "in_progress" || equalFold status "running"

def isWaiting (status : String) : Bool :=
  equalFold status "queued" || equalFold status "waiting"

/-- The first running job, else the first waiting one, else the first. -/
def currentJob (jobs : List Job) : Option Job :=
  (search [fun job => isRunning job.status, fun job => isWaiting job.status] jobs).or jobs.head?

/-- The first running step, else the first waiting one, else the last. -/
def currentStep (steps : List JobStep) : Option JobStep :=
  (search [fun step => isRunning step.status, fun step => isWaiting step.status] steps).or
    steps.getLast?

def currentStepName (steps : List JobStep) : String :=
  (currentStep steps).elim "" JobStep.name

/-- The names of the current job and of its current step. -/
def currentNames (jobs : List Job) : String × String :=
  (currentJob jobs).elim ("", "") fun job => (job.name, currentStepName job.steps)

theorem pickStep_eq (steps : List JobStep) :
    GitHubClient.pickStep steps = currentStepName steps := by
  unfold GitHubClient.pickStep
  by_cases isEmpty : steps = []
  · rw [dif_pos isEmpty, isEmpty]
    rfl
  · rw [dif_neg isEmpty, loop_eq, loop_eq, currentStepName, currentStep,
      List.getLast?_eq_some_getLast isEmpty, elim_or_some, getD_search_cons, getD_search_cons]
    rfl

theorem pickJobStep_eq (jobs : List Job) :
    GitHubClient.pickJobStep jobs = currentNames jobs := by
  unfold GitHubClient.pickJobStep
  by_cases isEmpty : jobs = []
  · rw [dif_pos isEmpty, isEmpty]
    rfl
  · simp only [dif_neg isEmpty, loop_eq, pickStep_eq]
    rw [currentNames, currentJob, List.head?_eq_some_head isEmpty, elim_or_some,
      getD_search_cons, getD_search_cons]
    rfl

theorem pickGiteaJobStep_eq : GiteaClient.pickGiteaJobStep = GitHubClient.pickJobStep :=
  rfl

/-- Both clients choose the names of the current job and of its current step. -/
theorem pickJobStep_eq_pickGiteaJobStep (jobs : List Job) :
    GitHubClient.pickJobStep jobs = GiteaClient.pickGiteaJobStep jobs ∧
      GitHubClient.pickJobStep jobs = currentNames jobs := by
  constructor
  · rw [pickGiteaJobStep_eq]
  · exact pickJobStep_eq jobs

example : GitHubClient.pickJobStep
    [⟨"build-go", "queued", []⟩,
      ⟨"hook-ts", "Running", [⟨"Checkout", "success"⟩, ⟨"Push", "IN_PROGRESS"⟩, ⟨"Done", ""⟩]⟩] =
    ("hook-ts", "Push") := by
  decide

/-! ### The progress -/

def VendorType.getRunCurrentStep (vendor : VendorType) :
    Option (List Job) → Option (String × String) :=
  match vendor with
  | github => GitHubClient.getRunCurrentStep
  | gitea => GiteaClient.getRunCurrentStep

theorem getRunCurrentStep_some (vendor : VendorType) (jobs : List Job) :
    vendor.getRunCurrentStep (some jobs) =
      if (currentNames jobs).1 = "" ∧ (currentNames jobs).2 = "" then none
      else some (currentNames jobs) := by
  rw [← pickJobStep_eq]
  cases vendor with
  | github => rfl
  | gitea => rfl

theorem exists_jobs_of_getRunCurrentStep {vendor : VendorType} {listed : Option (List Job)}
    {names : String × String} (isStep : vendor.getRunCurrentStep listed = some names) :
    ∃ jobs, listed = some jobs ∧ currentNames jobs = names := by
  cases listed with
  | none => cases vendor <;> cases isStep
  | some jobs =>
      rw [getRunCurrentStep_some] at isStep
      split at isStep
      · cases isStep
      · exact ⟨jobs, rfl, Option.some.inj isStep⟩

/-- A run is shown without a job, or with the current job and step of the jobs
that one lookup lists for it. -/
theorem shown_currentNames (toLower : Char → Char) (vendor : VendorType)
    (listed : Nat → Int → Option (List Job)) {actions : VendorActions} {index : Nat}
    {run : VendorRun} (isRun : actions.workflowRuns[index]? = some run) :
    ∃ shown, (getActionsProgress toLower (fun lookup id => vendor.getRunCurrentStep
        (listed lookup id)) vendor actions).runs[index]? = some shown ∧
      ((shown.currentJob, shown.currentStep) = ("", "") ∨ ∃ lookup jobs,
        listed lookup run.id = some jobs ∧
          (shown.currentJob, shown.currentStep) = currentNames jobs) := by
  have decoded : (actions.workflowRuns.map vendor.workflowRun)[index]? =
      some (vendor.workflowRun run) := by
    rw [List.getElem?_map, isRun, Option.map_some]
  obtain ⟨shown, isShown, stepped⟩ := exists_shown_of_populated toLower
    (fun lookup id => vendor.getRunCurrentStep (listed lookup id)) decoded 0
  apply Exists.intro shown
  apply And.intro isShown
  rcases stepped with rfl | ⟨lookup, job, step, isStep, rfl⟩
  · exact .inl rfl
  · obtain ⟨jobs, isListed, named⟩ := exists_jobs_of_getRunCurrentStep isStep
    exact .inr ⟨lookup, jobs, isListed, named.symm⟩

end Portal

end Litefunctions
