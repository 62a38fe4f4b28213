import Litefunctions.RefusedCreations
import Litefunctions.RoleRequests
import Litefunctions.VendorClients

/-!
# Failures that count as conflicts

`CreateProject` takes an error of the vendor for a conflict by its text, which
also has the URL of the request and the body of the answer in it.  A project is
created only after created or existing answers exactly where no other failure
has one of the two marks in its text.
-/

namespace Litefunctions

namespace Portal

open Program

/-- The vendor has answered that the thing is created or already exists: with
the status for a conflict, or as GitHub does it for repositories and hooks. -/
def HttpOutcome.IsSettled : HttpOutcome → Prop
  | .notCreated _ | .failed _ _ => False
  | .unread status _ => status = 201 ∨ status = 409
  | .answered status body _ =>
      status = 201 ∨ status = 409 ∨ (status = 422 ∧ containsText body "already exists" = true)

namespace ProjectHandlers

open FunctionHandlers (creationSettings shopContext)

/-- The answer is no error, or one that `CreateProject` takes for a conflict. -/
def Passes (answer : Except String String) : Prop :=
  ∀ text, answer = .error text → alreadyExists text = true

/-- The repository that `CreateProject` goes on with. -/
def repoNameOf (name : String) : Except String String → String
  | .error _ => name
  | .ok repoName => repoName

/-- The two calls of the vendor end in this way. -/
structure VendorOutcomes where
  client : VendorClient
  created : HttpOutcome
  hooked : HttpOutcome

namespace VendorOutcomes

variable (outcomes : VendorOutcomes)

/-- What is assumed of the calls of a request. -/
def Gives (request : PortalCall) (circumstance : PortalCall.Circumstance) (_ : World) : Prop :=
  match request with
  | .vcs _ .createRepo =>
      PortalCall.textAnswer circumstance = outcomes.client.createRepo outcomes.created
  | .vcs repo (.addWebhook _) =>
      PortalCall.textAnswer circumstance = outcomes.client.addWebhook repo outcomes.hooked
  | _ => True

def AreSettled : Prop :=
  outcomes.created.IsSettled ∧ outcomes.hooked.IsSettled

/-- Both calls for a project of this name pass. -/
def BothPass (name : String) : Prop :=
  Passes (outcomes.client.createRepo outcomes.created) ∧
    Passes (outcomes.client.addWebhook
      (repoNameOf name (outcomes.client.createRepo outcomes.created)) outcomes.hooked)

/-- The request is answered with 201 only where both outcomes are settled, and
leaves projects and roles unchanged where they are not. -/
def CreatesIfSettled (before : Database) (replies : List Reply) (after : World) : Prop :=
  (Answers 201 replies → outcomes.AreSettled) ∧
    (¬ outcomes.AreSettled → SameRoles before after.db)

end VendorOutcomes

/-! ### Requests whose calls do not pass -/

section Unpassed

variable {outcomes : VendorOutcomes} {settings : Settings} {c : Context} {name : String}
variable {world : World} {before : Database}

/-- The work of the transaction fails with an error, or both calls have passed. -/
def PassesOrFails (outcomes : VendorOutcomes) (name : String) (before : Database)
    (result : Except (List Reply) Project) (after : World) : Prop :=
  after.saved = some before ∧
    match result with
    | .error replies => ¬ Answers 201 replies
    | .ok _ => outcomes.BothPass name

theorem saved_query {statement : Query} {circumstance : PortalCall.Circumstance}
    {response : Except DbError statement.Value} {after : World}
    (executed : PortalCall.execute (.query statement) circumstance world = (response, after)) :
    after.saved = world.saved := by
  have last : after = (PortalCall.execute (.query statement) circumstance world).2 := by
    rw [executed]
  rw [last]
  simp only [PortalCall.execute]
  cases circumstance.fault <;> rfl

theorem vcs_executed {repo : String} {request : VcsCall} {circumstance : PortalCall.Circumstance}
    {response : Except String String} {after : World}
    (executed : PortalCall.execute (.vcs repo request) circumstance world = (response, after)) :
    response = PortalCall.textAnswer circumstance ∧ after.saved = world.saved := by
  obtain ⟨rfl, rfl⟩ := Prod.mk.inj executed
  exact ⟨rfl, rfl⟩

theorem begin_executed {circumstance : PortalCall.Circumstance} {begun : Bool} {after : World}
    (executed : PortalCall.execute .begin circumstance world = (begun, after)) :
    after.db = world.db ∧ (begun = true → after.saved = some world.db) := by
  have isBegun : begun = (PortalCall.execute .begin circumstance world).1 := by rw [executed]
  have last : after = (PortalCall.execute .begin circumstance world).2 := by rw [executed]
  rw [isBegun, last]
  simp only [PortalCall.execute]
  cases circumstance.fault with
  | none => exact ⟨rfl, fun _ => rfl⟩
  | refused | lost => exact ⟨rfl, fun isTrue => absurd isTrue Bool.false_ne_true⟩

theorem addWorkflow_passes {project : Project} {repo : String} (isSaved : world.saved = some before)
    (passes : outcomes.BothPass name) :
    (createProjectInTx.addWorkflow project repo).EnsuresUnder PortalCall.execute outcomes.Gives
      (PassesOrFails outcomes name before) world := by
  apply ensuresUnder_call
  intro circumstance response after _ executed
  have savedNow := (vcs_executed executed).2.trans isSaved
  cases response with
  | error text => exact ⟨savedNow, not_answers_other (by decide) _⟩
  | ok _ => exact ⟨savedNow, passes⟩

theorem addWebhook_passes (settings : Settings) (name : String) (project : Project)
    (isSaved : world.saved = some before)
    (created : Passes (outcomes.client.createRepo outcomes.created)) :
    (createProjectInTx.addWebhook settings project
      (repoNameOf name (outcomes.client.createRepo outcomes.created))).EnsuresUnder
        PortalCall.execute outcomes.Gives (PassesOrFails outcomes name before) world := by
  apply ensuresUnder_call
  intro circumstance response after isAnswer executed
  obtain ⟨isResponse, isSame⟩ := vcs_executed executed
  have answered := isResponse.trans isAnswer
  have savedNow := isSame.trans isSaved
  cases response with
  | ok _ =>
      apply addWorkflow_passes savedNow
      apply And.intro created
      intro text isError
      rw [← answered] at isError
      cases isError
  | error text =>
      change EnsuresUnder _ _ _ (if alreadyExists text = true then _ else _) _
      split
      · next isConflict =>
          apply addWorkflow_passes savedNow
          apply And.intro created
          intro other isError
          rw [← answered] at isError
          rwa [← Except.error.inj isError]
      · exact ⟨savedNow, not_answers_other (by decide) _⟩

theorem createProjectInTx_passes (isSaved : world.saved = some before) :
    (createProjectInTx settings c name).EnsuresUnder PortalCall.execute outcomes.Gives
      (PassesOrFails outcomes name before) world := by
  apply ensuresUnder_call
  intro insertion inserted afterInsert _ isInserted
  have savedInsert := (saved_query isInserted).trans isSaved
  cases inserted with
  | error err => exact ⟨savedInsert, not_answers_other (by decide) _⟩
  | ok project =>
      apply ensuresUnder_call
      intro addition added afterOwner _ isAdded
      have savedOwner := (saved_query isAdded).trans savedInsert
      cases added with
      | error err => exact ⟨savedOwner, not_answers_other (by decide) _⟩
      | ok _ =>
          apply ensuresUnder_call
          intro circumstance response after isAnswer executed
          obtain ⟨isResponse, isSame⟩ := vcs_executed executed
          have answered : response = outcomes.client.createRepo outcomes.created :=
            isResponse.trans isAnswer
          have savedNow := isSame.trans savedOwner
          cases response with
          | ok repoName =>
              have created : Passes (outcomes.client.createRepo outcomes.created) := by
                intro text isError
                rw [← answered] at isError
                cases isError
              have goesOn := addWebhook_passes settings name project savedNow created
              rwa [← answered] at goesOn
          | error text =>
              change EnsuresUnder _ _ _ (if alreadyExists text = true then _ else _) _
              split
              · next isConflict =>
                  have created : Passes (outcomes.client.createRepo outcomes.created) := by
                    intro other isError
                    rw [← answered] at isError
                    rwa [← Except.error.inj isError]
                  have goesOn := addWebhook_passes settings name project savedNow created
                  rwa [← answered] at goesOn
              · exact ⟨savedNow, not_answers_other (by decide) _⟩

/-- Where the calls pass only after settled outcomes, a request creates a
project only after these. -/
theorem createProject_createsIfSettled (settings : Settings) (c : Context) (reqName : String)
    (passes : outcomes.BothPass (reqName.map settings.toLower) → outcomes.AreSettled)
    (world : World) :
    (createProject settings c (some reqName)).EnsuresUnder PortalCall.execute outcomes.Gives
      (outcomes.CreatesIfSettled world.db) world := by
  have refused {status : Nat} (other : status ≠ 201) (text : String) (last : World)
      (unchanged : last.db = world.db) :
      outcomes.CreatesIfSettled world.db [.error status text] last :=
    ⟨fun created => absurd created (not_answers_other other _), fun _ => unchanged ▸ .refl _⟩
  apply ensuresUnder_call
  intro starting client afterClient _ isStarted
  have sameDb : afterClient.db = world.db := by
    rw [← (Prod.mk.inj isStarted).2]
  cases client with
  | error text => exact refused (by decide) _ afterClient sameDb
  | ok _ =>
      apply ensuresUnder_call
      intro beginning begun afterBegin _ isBegun
      obtain ⟨keptDb, isSaved⟩ := begin_executed isBegun
      cases begun with
      | false => exact refused (by decide) _ afterBegin (keptDb.trans sameDb)
      | true =>
          change EnsuresUnder _ _ _ (createProjectInTx settings c (reqName.map settings.toLower) >>= _) _
          rw [sameDb] at isSaved
          apply ensuresUnder_bind.mpr
          apply (createProjectInTx_passes (isSaved rfl)).imp
          rintro result after ⟨savedStill, ends⟩
          cases result with
          | error replies =>
              apply ensuresUnder_call
              intro rolling _ last _ isRolled
              have restored : last.db = world.db := by
                rw [← (Prod.mk.inj isRolled).2, savedStill, Option.getD_some]
              exact ⟨fun created => absurd created ends, fun _ => restored ▸ .refl _⟩
          | ok project =>
              have settled := passes ends
              exact EnsuresUnder.of_forall fun _ _ =>
                ⟨fun _ => settled, fun unsettled => absurd settled unsettled⟩

end Unpassed

/-! ### Requests that are answered with 201 -/

section Created

variable (user : Bytes) (name : String)

/-- A portal that knows only the user of the request. -/
def newcomerWorld : World where
  db := { Database.empty with users := .single ⟨user, "", ""⟩ }
  saved := none
  cluster := ⟨.empty, .empty, .empty, 0⟩
  clock := 0

def newcomerProject : Project :=
  ⟨.copy [], name, user, 0⟩

/-- The portal in the transaction, with the project and these rows of access. -/
def projectWorld (access : Table ProjectAccess ProjectAccess.conflicts) : World :=
  let world := newcomerWorld user
  { world with
    db := { world.db with projects := .single (newcomerProject user name), access }
    saved := some world.db }

def ownerAccess : Table ProjectAccess ProjectAccess.conflicts :=
  .single ⟨user, .copy [], .owner⟩

theorem createProject_executed :
    PortalCall.execute (.query (.project (.createProject name user))) {}
        { newcomerWorld user with saved := some (newcomerWorld user).db } =
      (.ok (newcomerProject user name), projectWorld user name .empty) := by
  have known : ((newcomerWorld user).db.user? user).isNone = false := by
    simp [newcomerWorld, Database.user?, Table.find?, Table.single]
  simp only [PortalCall.execute, Query.execute, ProjectQuery.execute, known]
  rfl

theorem insertAccess_newcomer :
    AccessQuery.insertAccess ⟨user, .copy [], .owner⟩ (projectWorld user name .empty).db =
      (.ok (), (projectWorld user name (ownerAccess user)).db) := by
  have known : ((projectWorld user name .empty).db.user? user).isNone = false := by
    simp [projectWorld, newcomerWorld, Database.user?, Table.find?, Table.single]
  have created : ((projectWorld user name .empty).db.project? (.copy [])).isNone = false := by
    simp [projectWorld, newcomerProject, Database.project?, Table.find?, Table.single]
  rw [AccessQuery.insertAccess, known, created, if_neg (by decide)]
  rfl

theorem addProjectOwner_executed :
    PortalCall.execute (.query (.access (.addProjectOwner user (.copy [])))) {}
        (projectWorld user name .empty) =
      (.ok (), projectWorld user name (ownerAccess user)) := by
  have added : Query.execute ⟨0, .copy []⟩ (.access (.addProjectOwner user (.copy [])))
      (projectWorld user name .empty).db =
        (.ok (), (projectWorld user name (ownerAccess user)).db) :=
    insertAccess_newcomer user name
  have clock : (projectWorld user name .empty).clock + ((0 : Nat) : Int) = 0 := rfl
  simp only [PortalCall.execute, clock, added]
  rfl

end Created

theorem exists_textAnswer (answer : Except String String) :
    ∃ circumstance : PortalCall.Circumstance, PortalCall.textAnswer circumstance = answer := by
  cases answer with
  | ok text => exact ⟨{ text }, rfl⟩
  | error text => exact ⟨{ fault := .refused, text }, rfl⟩

theorem execute_vcs (repo : String) (request : VcsCall) {circumstance : PortalCall.Circumstance}
    {answer : Except String String} (isAnswer : PortalCall.textAnswer circumstance = answer)
    (world : World) :
    PortalCall.execute (.vcs repo request) circumstance world =
      (answer, { world with clock := world.clock + circumstance.elapsed }) :=
  Prod.ext isAnswer rfl

section Passed

variable {outcomes : VendorOutcomes} {settings : Settings}

theorem addWorkflow_may (project : Project) (repo : String) (world : World) :
    (createProjectInTx.addWorkflow project repo).MayUnder PortalCall.execute outcomes.Gives
      (fun result _ => result = .ok project) world :=
  ⟨{}, trivial, rfl⟩

theorem addWebhook_may (project : Project) {repo : String}
    (passes : Passes (outcomes.client.addWebhook repo outcomes.hooked)) (world : World) :
    (createProjectInTx.addWebhook settings project repo).MayUnder PortalCall.execute outcomes.Gives
      (fun result _ => result = .ok project) world := by
  obtain ⟨hook, isHook⟩ := exists_textAnswer (outcomes.client.addWebhook repo outcomes.hooked)
  have executed := execute_vcs repo (.addWebhook s!"https://{settings.fqdn}/api/webhooks/vcs") isHook world
  revert executed passes
  generalize outcomes.client.addWebhook repo outcomes.hooked = answer
  intro passes executed
  apply mayUnder_call isHook executed
  cases answer with
  | ok _ => exact addWorkflow_may project repo _
  | error text =>
      change MayUnder _ _ _ (if alreadyExists text = true then _ else _) _
      rw [if_pos (passes text rfl)]
      exact addWorkflow_may project repo _

/-- Where both calls pass, a request may be answered with 201. -/
theorem createProject_may (c : Context) {reqName : String}
    (passes : outcomes.BothPass (reqName.map settings.toLower)) :
    (createProject settings c (some reqName)).MayUnder PortalCall.execute outcomes.Gives
      (fun replies _ => Answers 201 replies) (newcomerWorld c.userID) := by
  refine ⟨{}, trivial, {}, trivial, ?_⟩
  change MayUnder _ _ _ (createProjectInTx settings c (reqName.map settings.toLower) >>= _) _
  rw [mayUnder_bind]
  obtain ⟨creation, isCreation⟩ := exists_textAnswer (outcomes.client.createRepo outcomes.created)
  have created : (createProjectInTx settings c (reqName.map settings.toLower)).MayUnder
      PortalCall.execute outcomes.Gives
      (fun result _ => result = .ok (newcomerProject c.userID (reqName.map settings.toLower)))
      { newcomerWorld c.userID with saved := some (newcomerWorld c.userID).db } := by
    apply mayUnder_call trivial (createProject_executed c.userID (reqName.map settings.toLower))
    apply mayUnder_call trivial (addProjectOwner_executed c.userID (reqName.map settings.toLower))
    obtain ⟨createdPasses, hookedPasses⟩ := passes
    have executed := execute_vcs (reqName.map settings.toLower) .createRepo isCreation
      (projectWorld c.userID (reqName.map settings.toLower) (ownerAccess c.userID))
    revert executed createdPasses hookedPasses
    generalize outcomes.client.createRepo outcomes.created = answer
    intro createdPasses hookedPasses executed
    apply mayUnder_call isCreation executed
    cases answer with
    | ok repoName => exact addWebhook_may _ hookedPasses _
    | error text =>
        change MayUnder _ _ _ (if alreadyExists text = true then _ else _) _
        rw [if_pos (createdPasses text rfl)]
        exact addWebhook_may _ hookedPasses _
  apply created.imp
  rintro result after rfl
  exact ⟨{}, trivial, { fault := .refused }, trivial, _, List.mem_singleton_self _⟩

end Passed

/-- A request creates its project only after settled outcomes exactly where the
two calls pass only with these. -/
theorem createProject_createsIfSettled_iff (settings : Settings) (c : Context) (reqName : String)
    (outcomes : VendorOutcomes) :
    (∀ world, (createProject settings c (some reqName)).EnsuresUnder PortalCall.execute
        outcomes.Gives (outcomes.CreatesIfSettled world.db) world) ↔
      (outcomes.BothPass (reqName.map settings.toLower) → outcomes.AreSettled) := by
  constructor
  · intro creates passes
    obtain ⟨replies, last, ensured, created⟩ :=
      (creates (newcomerWorld c.userID)).of_may (createProject_may c passes)
    exact ensured.1 created
  · exact createProject_createsIfSettled settings c reqName

/-- The repository `order409` is created, and Gitea does not answer about its hook. -/
def unreachedHook : VendorOutcomes where
  client := ⟨.gitea, "http://git.lite.example", "lite", id⟩
  created := .answered 201 "\x7b\"name\":\"order409\"\x7d" (.ok "order409")
  hooked := .failed "Post \"" "\": connection refused"

/-- The URL of the hooks of `order409` has the mark of a conflict in it. -/
theorem unreachedHook_creates :
    ¬ ∀ (settings : Settings) (c : Context) (reqName : String) (outcomes : VendorOutcomes)
      (world : World), (createProject settings c (some reqName)).EnsuresUnder PortalCall.execute
        outcomes.Gives (outcomes.CreatesIfSettled world.db) world := by
  intro always
  have passes : unreachedHook.BothPass ("order409".map creationSettings.toLower) := by
    constructor
    · intro text isError
      cases isError
    · intro text isError
      rw [← Except.error.inj isError]
      decide +kernel
  have ensures := always creationSettings shopContext "order409" unreachedHook
    (newcomerWorld shopContext.userID)
  obtain ⟨replies, last, ensured, created⟩ := ensures.of_may (createProject_may shopContext passes)
  exact (ensured.1 created).2

end ProjectHandlers

end Portal

end Litefunctions
