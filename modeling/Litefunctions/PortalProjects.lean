import Litefunctions.PortalFunctions

/-!
# Project handlers of the portal

Creating a project makes its creator the owner.  An owner creates invites, and
who joins by an invite becomes a viewer.  The handlers of access rows change
the members of the cookie's project.
-/

namespace Litefunctions

namespace Portal

open Program

namespace ProjectHandlers

/-- Whether an error of the vendor is tolerated. -/
def alreadyExists (text : String) : Bool :=
  containsText text "already exists" || containsText text "409"

/-- The part of `CreateProject` inside its transaction. -/
def createProjectInTx (settings : Settings) (c : Context) (name : String) :
    PortalProgram (Except (List Reply) Project) := do
  match ← projectQuery (.createProject name c.userID) with
  | .error err => return .error [.json 500 (.obj [("error", .dbError "" err)])]
  | .ok project =>
      match ← accessQuery (.addProjectOwner c.userID project.id) with
      | .error err => return .error [.json 500 (.obj [("error", .dbError "" err)])]
      | .ok _ =>
          let repo ← onVcs name .createRepo
          match repo with
          | .error text =>
              if alreadyExists text then addWebhook project name
              else return .error [.error 500 ("failed to create repo: " ++ text)]
          | .ok repoName => addWebhook project repoName
where
  addWebhook (project : Project) (repoName : String) :
      PortalProgram (Except (List Reply) Project) := do
    match ← onVcs repoName (.addWebhook s!"https://{settings.fqdn}/api/webhooks/vcs") with
    | .error text =>
        if alreadyExists text then addWorkflow project repoName
        else return .error [.error 500 ("failed to add webhook: " ++ text)]
    | .ok _ => addWorkflow project repoName
  addWorkflow (project : Project) (repoName : String) :
      PortalProgram (Except (List Reply) Project) := do
    match ← onVcs repoName .addWorkflow with
    | .error _ => return .error [.error 500 "failed to add workflow"]
    | .ok _ => return .ok project

/-- A transaction, rolled back where the work fails. -/
def inTransaction {Value : Type} (refused failed : Reply)
    (work : PortalProgram (Except (List Reply) Value)) (next : Value → Replies) : Replies := do
  if ← beginTx then
    match ← work with
    | .error replies => do
        rollbackTx
        return replies
    | .ok value =>
        if ← commitTx then
          next value
        else
          return [failed]
  else
    return [refused]

def createProject (settings : Settings) (c : Context) (body : Option String) : Replies := do
  match body with
  | none => return [.error 400 "invalid request"]
  | some reqName =>
      let name := reqName.map settings.toLower
      match ← newVendorClient with
      | .error text => return [.error 500 ("failed to init vcs client: " ++ text)]
      | .ok _ =>
          inTransaction (.error 500 "failed to start transaction")
            (.error 500 "failed to commit transaction") (createProjectInTx settings c name)
            fun project => do
              let _ ← FunctionHandlers.syncRepoFunctionsToDb settings project.id name c.userID
              return [.json 201 (.obj
                [("id", .str project.id.text), ("name", .str project.name)])]

def syncProject (settings : Settings) (c : Context) : Replies :=
  c.mustGetProject fun project => do
    if ← FunctionHandlers.syncRepoFunctionsToDb settings project.projectUUID project.projectName
        c.userID then
      match ← newVendorClient with
      | .error text => return [.error 500 ("failed to init vcs client: " ++ text)]
      | .ok _ =>
          match ← onVcs project.projectName .addWorkflow with
          | .error _ => return [.error 500 "failed to add workflow"]
          | .ok _ => return [.json 200 (.obj [("status", .str "synced")])]
    else
      return [.error 500 "sync failed"]

/-- 24 hours in nanoseconds. -/
def inviteLifetime : Int :=
  24 * 60 * 60 * 1000000000

/-- The part of `CreateProjectInvite` inside its transaction. -/
def createInviteInTx (user : Bytes) (project : Uuid) :
    PortalProgram (Except (List Reply) ProjectInvite) := do
  match ← accessQuery (.getUserProjectRole user project) with
  | .error _ => return .error [.error 403 "only owners can invite"]
  | .ok role =>
      if role ≠ "owner" then
        return .error [.error 403 "only owners can invite"]
      else
        let draws ← drawInvite
        let issued ← timeNow
        match ← accessQuery (.createProjectInvite project (generateInviteCode draws) user
            (issued + inviteLifetime)) with
        | .error _ => return .error [.error 500 "failed to create invite"]
        | .ok invite => return .ok invite

def createProjectInvite (c : Context) : Replies :=
  c.mustGetProject fun project =>
    inTransaction (.error 500 "error starting transaction") (.error 500 "failed to commit")
      (createInviteInTx c.userID project.projectUUID)
      fun invite => return [.json 200 (.obj
        [("code", .str invite.inviteCode), ("expires_at", .time invite.expiresAt)])]

/-- The part of `JoinProjectByInvite` inside its transaction. -/
def joinInTx (user : Bytes) (code : String) :
    PortalProgram (Except (List Reply) ProjectInvite) := do
  match ← accessQuery (.getValidInviteByCode code) with
  | .error _ => return .error [.error 400 "invalid or expired invite"]
  | .ok invite =>
      if invite.createdBy = user then
        return .error [.error 400 "cannot use your own invite"]
      else
        match ← accessQuery (.addViewerToProject user invite.projectID) with
        | .error _ => return .error [.error 500 "failed to add user to project"]
        | .ok _ =>
            match ← accessQuery (.markInviteUsed invite.id) with
            | .error _ => return .error [.error 500 "failed to consume invite"]
            | .ok _ => return .ok invite

def joinProjectByInvite (c : Context) (code : Option String) : Replies := do
  if code.getD "" = "" then
    return [.error 400 "invite code required"]
  else
    inTransaction (.error 500 "failed to start transaction") (.error 500 "failed to commit")
      (joinInTx c.userID (code.getD ""))
      fun invite => return [.json 200 (.obj [("project_id", .str invite.projectID.text)])]

def listProjectAccess (c : Context) : Replies :=
  c.mustGetProject fun project => do
    match ← accessQuery (.listUsersForProject project.projectUUID) with
    | .error _ => return [.error 500 "error listing users for project"]
    | .ok rows =>
        return [.json 200 (.arr (rows.map fun r => .obj
          [("id", .str (HexText.encode r.1.id)), ("name", .str r.1.name),
            ("role", .str r.2.text)]))]

/-- The role of the body; `none` where it is malformed. -/
def updateProjectAccess (c : Context) (id : String) (body : Option String) : Replies :=
  c.mustGetProject fun project => do
    match body with
    | none => return [.error 400 "invalid json body"]
    | some role =>
        match ← accessQuery (.updateUserProjectRole (scanHex id) project.projectUUID role) with
        | .error _ => return [.error 500 "error updating user access to project"]
        | .ok _ => return [.status 200]

def revokeProjectAccess (c : Context) (id : String) : Replies :=
  c.mustGetProject fun project => do
    match ← accessQuery (.revokeProjectAccess project.projectUUID (scanHex id)) with
    | .error _ => return [.error 500 "error revoking project access"]
    | .ok _ => return [.status 200]

def listProjects (c : Context) : Replies := do
  match ← accessQuery (.listProjectsForUser c.userID) with
  | .error _ => return [.error 500 "failed to list projects"]
  | .ok rows =>
      return [.json 200 (.arr (rows.map fun r => .obj
        [("id", .str r.1.id.hex), ("name", .str r.1.name), ("role", .str r.2.text)]))]

/-- The id in the path is not read. -/
def getProject (c : Context) (_id : String) : Replies :=
  c.mustGetProject fun project => do
    match ← projectQuery (.getProjectByID project.projectUUID) with
    | .error _ => return [.error 404 "project not found"]
    | .ok p =>
        return [.json 200 (.obj
          [("ID", .str p.id.text), ("Name", .str p.name), ("Description", .null),
            ("CreatedBy", .base64 p.createdBy), ("CreatedAt", .time p.createdAt)])]

def deleteProject (_c : Context) (_id : String) : Replies :=
  return [.json 200 (.obj [("status", .str "delete not fully implemented yet")])]

end ProjectHandlers

end Portal

end Litefunctions
