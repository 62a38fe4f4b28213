import Litefunctions.PortalRoutes
import Litefunctions.RequestedUpdates

/-!
# Handlers that keep the roles

Most handlers only make calls that leave the access rows and the projects as
they are.
-/

namespace Litefunctions

namespace Portal

open Program

/-- The statement leaves access rows and projects as they are. -/
def Query.keepsRoles : Query → Bool
  | access query => query.reads ||
      match query with
      | .createProjectInvite _ _ _ _ | .markInviteUsed _ => true
      | _ => false
  | project query => query.reads
  | _ => true

/-- The call leaves access rows and projects as they are. -/
def PortalCall.keepsRoles : PortalCall → Bool
  | query statement => statement.keepsRoles
  | begin | commit | rollback => false
  | _ => true

/-- Access rows and projects are the same. -/
structure SameRoles (db after : Database) : Prop where
  access : after.access = db.access
  projects : after.projects = db.projects

theorem SameRoles.refl (db : Database) : SameRoles db db :=
  ⟨rfl, rfl⟩

theorem SameRoles.trans {first second third : Database} (early : SameRoles first second)
    (late : SameRoles second third) : SameRoles first third :=
  ⟨late.access.trans early.access, late.projects.trans early.projects⟩

theorem AuthQuery.sameRoles (query : AuthQuery) (moment : Moment) (db : Database) :
    SameRoles db (query.execute moment db).2 := by
  cases query with
  | createUser | createCredential | updateCredential | saveSession | createUserSession =>
      simp only [execute]
      repeat' split
      all_goals exact ⟨rfl, rfl⟩
  | _ => exact ⟨rfl, rfl⟩

theorem FunctionQuery.sameRoles (query : FunctionQuery) (moment : Moment) (db : Database) :
    SameRoles db (query.execute moment db).2 := by
  cases query with
  | createFunction | deleteFunction =>
      simp only [execute]
      repeat' split
      all_goals exact ⟨rfl, rfl⟩
  | updateFunctionPath | updateFunctionIsAsync =>
      simp only [execute, change]
      repeat' split
      all_goals exact ⟨rfl, rfl⟩
  | _ => exact ⟨rfl, rfl⟩

theorem EndpointQuery.sameRoles (query : EndpointQuery) (moment : Moment) (db : Database) :
    SameRoles db (query.execute moment db).2 := by
  cases query with
  | createEndpoint | updateEndpointMethodScope =>
      simp only [execute]
      repeat' split
      all_goals exact ⟨rfl, rfl⟩
  | _ => exact ⟨rfl, rfl⟩

theorem Query.sameRoles (statement : Query) (keeps : statement.keepsRoles = true) (moment : Moment)
    (db : Database) : SameRoles db (statement.execute moment db).2 := by
  by_cases reads : statement.reads = true
  · rw [execute_of_reads reads]
    exact .refl db
  cases statement with
  | access query =>
      cases query with
      | createProjectInvite | markInviteUsed =>
          simp only [execute, AccessQuery.execute]
          repeat' split
          all_goals exact ⟨rfl, rfl⟩
      | _ => first | exact absurd rfl reads | cases keeps
  | project query => exact absurd keeps reads
  | function query => exact query.sameRoles moment db
  | endpoint query => exact query.sameRoles moment db
  | auth query => exact query.sameRoles moment db

theorem PortalCall.sameRoles {request : PortalCall} (keeps : request.keepsRoles = true)
    (circumstance : Circumstance) (world : World) :
    SameRoles world.db (request.execute circumstance world).2.db := by
  cases request with
  | query statement =>
      have same := statement.sameRoles keeps
        ⟨world.clock + circumstance.elapsed, circumstance.fresh⟩ world.db
      simp only [execute]
      cases circumstance.fault with
      | refused => exact .refl _
      | none | lost => exact same
  | begin | commit | rollback => cases keeps
  | createFunctionCRD req =>
      simp only [execute]
      cases circumstance.fault <;> exact .refl _
  | _ => exact .refl _

/-- A program whose calls all keep the roles. -/
abbrev KeepsRoles {Result : Type} (program : PortalProgram Result) : Prop :=
  program.Makes fun request => request.keepsRoles = true

/-! ### Functions -/

namespace FunctionHandlers

theorem createFunction_keepsRoles (settings : Settings) (c : Context)
    (body : Option CreateFunctionRequest) : KeepsRoles (createFunction settings c body) := by
  apply mustGetProject_makes c
  intro project _
  cases body with
  | none => trivial
  | some req =>
      simp only
      split
      · trivial
      · apply And.intro rfl
        intro listed
        cases listed with
        | error err => trivial
        | ok fns =>
            show KeepsRoles (if fns.any (·.name = req.name) = true then _ else _)
            split
            · trivial
            · refine (mkdirs_makes (fun _ => rfl) _).bind fun _ => ⟨rfl, fun isCreated => ?_⟩
              cases isCreated with
              | false => trivial
              | true =>
                  apply (commitAndPush_makes (fun _ => rfl) _ _).bind
                  intro failed
                  cases failed with
                  | some replies => trivial
                  | none =>
                      apply And.intro rfl
                      intro created
                      cases created with
                      | error err => trivial
                      | ok fn => exact ⟨rfl, fun _ => ⟨rfl, fun _ => trivial⟩⟩

theorem listEndpointsForProject_keepsRoles (projectUUID : Uuid) :
    KeepsRoles (listEndpointsForProject projectUUID) := by
  apply And.intro rfl
  intro listed
  cases listed <;> trivial

theorem listFunctions_keepsRoles (c : Context) (search limit offset : Option String) :
    KeepsRoles (listFunctions c search limit offset) := by
  refine mustGetProject_makes c fun project _ => ⟨rfl, fun listed => ?_⟩
  cases listed with
  | error err => trivial
  | ok fns => exact (listEndpointsForProject_keepsRoles _).bind fun _ => trivial

theorem getFunction_keepsRoles (c : Context) (fnHex : String) :
    KeepsRoles (getFunction c fnHex) := by
  unfold getFunction
  cases HexText.decode fnHex with
  | none => trivial
  | some fnID =>
      apply And.intro rfl
      intro found
      cases found with
      | error err => trivial
      | ok f =>
          refine mustGetProject_makes c fun project _ => ⟨rfl, fun data => ?_⟩
          rcases data with (_ | _) | _ <;> trivial

theorem updateFunction_keepsRoles (c : Context) (fnHex : String) (body : UpdateBody) :
    KeepsRoles (updateFunction c fnHex body) :=
  updateFunction_makes (fun _ _ _ => rfl) (fun _ => rfl) (fun _ => rfl) (fun _ => rfl) fnHex body

theorem restoreFunction_keepsRoles (f : FunctionRow) (text : String) :
    KeepsRoles (restoreFunction f text) :=
  ⟨rfl, fun _ => trivial⟩

theorem deleteFunction_keepsRoles (c : Context) (fnHex : String) :
    KeepsRoles (deleteFunction c fnHex) := by
  unfold deleteFunction
  cases HexText.decode fnHex with
  | none => trivial
  | some fnID =>
      apply And.intro rfl
      intro found
      cases found with
      | error err => trivial
      | ok f =>
          apply And.intro rfl
          intro deleted
          cases deleted with
          | error err => trivial
          | ok _ =>
              refine mustGetProject_makes c fun project _ => ⟨rfl, fun isRemoved => ?_⟩
              cases isRemoved with
              | false => exact restoreFunction_keepsRoles f _
              | true =>
                  apply And.intro rfl
                  intro committed
                  cases committed with
                  | error err => exact restoreFunction_keepsRoles f _
                  | ok _ =>
                      apply And.intro rfl
                      intro isPushed
                      cases isPushed with
                      | false => exact restoreFunction_keepsRoles f _
                      | true => trivial

theorem ensureEndpoint_keepsRoles (s : SyncContext) (fnID : Uuid) (fnName : String) :
    KeepsRoles (ensureEndpoint s fnID fnName) := by
  unfold ensureEndpoint
  split
  · trivial
  · exact ⟨rfl, fun _ => trivial⟩

theorem syncFile_keepsRoles (settings : Settings) (s : SyncContext) (path : String) :
    KeepsRoles (syncFile settings s path) := by
  unfold syncFile
  cases extLang (ext path) with
  | none => trivial
  | some lang =>
      simp only
      cases s.existingPath path with
      | some id => exact ensureEndpoint_keepsRoles s id _
      | none =>
          apply And.intro rfl
          intro created
          cases created with
          | error err => trivial
          | ok fn =>
              exact (ensureEndpoint_keepsRoles s fn.id _).bind fun _ => ⟨rfl, fun _ => trivial⟩

theorem syncFiles_keepsRoles (settings : Settings) (s : SyncContext) (paths : List String) :
    KeepsRoles (syncFiles settings s paths) := by
  induction paths with
  | nil => trivial
  | cons path paths ih => exact (syncFile_keepsRoles settings s path).bind fun _ => ih

theorem syncRepoFunctionsToDb_keepsRoles (settings : Settings) (projectUUID : Uuid)
    (projectName : String) (userID : Bytes) :
    KeepsRoles (syncRepoFunctionsToDb settings projectUUID projectName userID) := by
  apply And.intro rfl
  intro isNew
  cases isNew with
  | false => trivial
  | true =>
      apply And.intro rfl
      intro listed
      cases listed with
      | error err => trivial
      | ok existingFns =>
          apply And.intro rfl
          intro listed
          cases listed with
          | error err => trivial
          | ok existingEps =>
              exact ⟨rfl, fun files => (syncFiles_keepsRoles settings _ files).bind fun _ => trivial⟩

end FunctionHandlers

/-! ### Endpoints, pages and actions -/

theorem EndpointHandlers.getEndpoint_keepsRoles (epIDHex : String) :
    KeepsRoles (EndpointHandlers.getEndpoint epIDHex) := by
  unfold EndpointHandlers.getEndpoint
  cases HexText.decode epIDHex with
  | none => trivial
  | some epIDBytes =>
      apply And.intro rfl
      intro found
      cases found <;> trivial

theorem EndpointHandlers.updateEndpoint_keepsRoles (epIDHex : String)
    (body : Option EndpointHandlers.UpdateEndpointRequest) :
    KeepsRoles (EndpointHandlers.updateEndpoint epIDHex body) := by
  unfold EndpointHandlers.updateEndpoint
  cases HexText.decode epIDHex with
  | none => trivial
  | some epIDBytes =>
      cases body with
      | none => trivial
      | some req =>
          apply And.intro rfl
          intro updated
          cases updated <;> trivial

theorem EndpointHandlers.listEndpoints_keepsRoles (c : Context) (search limit offset : Option String) :
    KeepsRoles (EndpointHandlers.listEndpoints c search limit offset) := by
  refine mustGetProject_makes c fun project _ => ⟨rfl, fun listed => ?_⟩
  cases listed <;> trivial

namespace ActionHandlers

theorem send_keepsRoles (project : String) (opts : ActionsProgressOptions) :
    KeepsRoles (send project opts) := by
  apply And.intro rfl
  intro progress
  cases progress <;> trivial

theorem sendUntilGone_keepsRoles (project : String) (opts : ActionsProgressOptions) (rounds : Nat) :
    KeepsRoles (sendUntilGone project opts rounds) := by
  induction rounds with
  | zero => trivial
  | succ rounds ih =>
      apply And.intro rfl
      intro isGone
      cases isGone with
      | true => trivial
      | false => exact (send_keepsRoles _ _).bind fun _ => ih.bind fun _ => trivial

theorem status_keepsRoles (c : Context) (params : StatusParams) (rounds : Nat) :
    KeepsRoles (status c params rounds) := by
  apply And.intro rfl
  intro client
  cases client with
  | error text => trivial
  | ok _ =>
      apply mustGetProject_makes c
      intro project _
      cases params.limit? with
      | none => trivial
      | some limit =>
          exact (send_keepsRoles _ _).bind fun _ =>
            (sendUntilGone_keepsRoles _ _ rounds).bind fun _ => trivial

end ActionHandlers

namespace UIHandlers

theorem userNameOr_keepsRoles (userID : Bytes) (otherwise : String) :
    KeepsRoles (userNameOr userID otherwise) := by
  apply And.intro rfl
  intro found
  cases found <;> trivial

theorem dashboard_keepsRoles (cookies : Cookies) (c : Context) :
    KeepsRoles (dashboard cookies c) := by
  apply And.intro rfl
  intro listed
  cases listed with
  | error err => exact (userNameOr_keepsRoles _ _).bind fun _ => trivial
  | ok rows => exact (userNameOr_keepsRoles _ _).bind fun _ => trivial

theorem functions_keepsRoles (cookies : Cookies) (c : Context) :
    KeepsRoles (functions cookies c) := by
  apply mustGetProject_makes c
  intro project _
  apply (FunctionHandlers.listEndpointsForProject_keepsRoles _).bind
  intro eps
  apply And.intro rfl
  intro listed
  cases listed with
  | error err => exact (userNameOr_keepsRoles _ _).bind fun _ => trivial
  | ok rows => exact (userNameOr_keepsRoles _ _).bind fun _ => trivial

theorem endpoints_keepsRoles (settings : Settings) (c : Context) :
    KeepsRoles (endpoints settings c) :=
  mustGetProject_makes c fun _ _ =>
    (FunctionHandlers.listEndpointsForProject_keepsRoles _).bind fun _ => trivial

end UIHandlers

/-! ### Projects -/

namespace ProjectHandlers

theorem syncProject_keepsRoles (settings : Settings) (c : Context) :
    KeepsRoles (syncProject settings c) := by
  apply mustGetProject_makes c
  intro project _
  apply (FunctionHandlers.syncRepoFunctionsToDb_keepsRoles _ _ _ _).bind
  intro isSynced
  cases isSynced with
  | false => trivial
  | true =>
      apply And.intro rfl
      intro client
      cases client with
      | error text => trivial
      | ok _ =>
          apply And.intro rfl
          intro added
          cases added <;> trivial

theorem listProjectAccess_keepsRoles (c : Context) : KeepsRoles (listProjectAccess c) := by
  refine mustGetProject_makes c fun project _ => ⟨rfl, fun listed => ?_⟩
  cases listed <;> trivial

theorem listProjects_keepsRoles (c : Context) : KeepsRoles (listProjects c) := by
  apply And.intro rfl
  intro listed
  cases listed <;> trivial

theorem getProject_keepsRoles (c : Context) (id : String) : KeepsRoles (getProject c id) := by
  refine mustGetProject_makes c fun project _ => ⟨rfl, fun found => ?_⟩
  cases found <;> trivial

end ProjectHandlers

/-! ### Passkeys -/

namespace Passkeys

variable {Response : Type}

theorem getUser_keepsRoles (userName : String) : KeepsRoles (getUser userName) := by
  apply And.intro rfl
  intro found
  cases found with
  | error err => trivial
  | ok u =>
      apply And.intro rfl
      intro listed
      cases listed <;> trivial

theorem getOrCreateUser_keepsRoles (userName : String) : KeepsRoles (getOrCreateUser userName) := by
  apply (getUser_keepsRoles userName).bind
  intro found
  cases found with
  | ok existingUser => trivial
  | error err =>
      apply And.intro rfl
      intro created
      cases created <;> trivial

theorem userOfSession_keepsRoles (id : Bytes) : KeepsRoles (userOfSession id) := by
  unfold userOfSession
  cases textOf id with
  | none => trivial
  | some userName => exact getOrCreateUser_keepsRoles userName

theorem getSession_keepsRoles (token : String) : KeepsRoles (getSession token) := by
  apply And.intro rfl
  intro found
  cases found <;> trivial

theorem saveSession_keepsRoles (username token : String) (data : SessionData) :
    KeepsRoles (saveSession username token data) :=
  ⟨rfl, fun _ => trivial⟩

theorem startUserSession_keepsRoles (settings : Settings) (user : PasskeyUser) (success : String) :
    KeepsRoles (startUserSession settings user success) := by
  apply And.intro rfl
  intro drawn
  cases drawn with
  | none => trivial
  | some sessionID =>
      dsimp only [Program.bind]
      split
      · trivial
      · next duration _ =>
          refine ⟨rfl, fun current => ⟨rfl, fun created => ?_⟩⟩
          cases created with
          | error err => trivial
          | ok _ => exact ⟨rfl, fun _ => trivial⟩

theorem beginRegistration_keepsRoles (settings : Settings) (authn : WebAuthn Response)
    (body : Option String) : KeepsRoles (beginRegistration settings authn body) := by
  cases body with
  | none => trivial
  | some username =>
      apply (getOrCreateUser_keepsRoles username).bind
      intro found
      cases found with
      | error err => trivial
      | ok user =>
          apply And.intro rfl
          intro challenge
          dsimp only [Program.bind]
          split
          · trivial
          · next started _ =>
              cases settings.sessionExpiry with
              | none => trivial
              | some expDur =>
                  refine ⟨rfl, fun current => ⟨rfl, fun t => ?_⟩⟩
                  apply (saveSession_keepsRoles _ _ _).bind
                  intro saved
                  cases saved <;> trivial

theorem beginLogin_keepsRoles (authn : WebAuthn Response) (body : Option String) :
    KeepsRoles (beginLogin authn body) := by
  cases body with
  | none => trivial
  | some username =>
      apply (getOrCreateUser_keepsRoles username).bind
      intro found
      cases found with
      | error err => trivial
      | ok user =>
          apply And.intro rfl
          intro challenge
          dsimp only [Program.bind]
          split
          · trivial
          · next started _ =>
              refine ⟨rfl, fun t => (saveSession_keepsRoles _ _ _).bind fun saved => ?_⟩
              cases saved <;> trivial

theorem finishRegistration_keepsRoles (settings : Settings) (authn : WebAuthn Response) (t : String)
    (response : Response) : KeepsRoles (finishRegistration settings authn t response) := by
  apply (getSession_keepsRoles t).bind
  intro found
  cases found with
  | none => trivial
  | some session =>
      apply (userOfSession_keepsRoles _).bind
      intro resolved
      cases resolved with
      | error err => trivial
      | ok user =>
          apply And.intro rfl
          intro current
          dsimp only [Program.bind]
          split
          · trivial
          · next credential _ =>
              apply And.intro rfl
              intro created
              cases created with
              | error err => trivial
              | ok _ => exact ⟨rfl, fun _ => startUserSession_keepsRoles _ _ _⟩

theorem finishLogin_keepsRoles (settings : Settings) (authn : WebAuthn Response) (t : String)
    (response : Response) : KeepsRoles (finishLogin settings authn t response) := by
  apply (getSession_keepsRoles t).bind
  intro found
  cases found with
  | none => trivial
  | some session =>
      apply (userOfSession_keepsRoles _).bind
      intro resolved
      cases resolved with
      | error err => trivial
      | ok user =>
          apply And.intro rfl
          intro current
          dsimp only [Program.bind]
          split
          · trivial
          · next credential _ =>
              apply And.intro rfl
              intro updated
              cases updated with
              | error err => trivial
              | ok _ => exact ⟨rfl, fun _ => startUserSession_keepsRoles _ _ _⟩

theorem logout_keepsRoles (cookies : Cookies) : KeepsRoles (logout cookies) := by
  unfold logout
  cases cookies.session with
  | none => trivial
  | some sessionID => exact ⟨rfl, fun _ => trivial⟩

end Passkeys

theorem PasskeyRoute.handle_keepsRoles {Response : Type} (settings : Settings)
    (authn : Passkeys.WebAuthn Response) (cookies : Cookies) (route : PasskeyRoute Response) :
    KeepsRoles (route.handle settings authn cookies) := by
  cases route with
  | registerStart body => exact Passkeys.beginRegistration_keepsRoles settings authn body
  | registerFinish sessionKey response =>
      exact Passkeys.finishRegistration_keepsRoles settings authn sessionKey response
  | loginStart body => exact Passkeys.beginLogin_keepsRoles authn body
  | loginFinish sessionKey response =>
      exact Passkeys.finishLogin_keepsRoles settings authn sessionKey response
  | logout => exact Passkeys.logout_keepsRoles cookies

/-- The three routes behind `ProjectMiddleware` that write access rows or use a
transaction. -/
def ProjectRoute.mayChangeRoles : ProjectRoute → Bool
  | updateProjectAccess _ _ | revokeProjectAccess _ | createProjectInvite => true
  | _ => false

theorem ProjectRoute.handle_keepsRoles {route : ProjectRoute} (keeps : route.mayChangeRoles = false)
    (settings : Settings) (cookies : Cookies) (c : Context) :
    KeepsRoles (route.handle settings cookies c) := by
  cases route with
  | configuration | dataPage | deleteProject => trivial
  | functionsPage => exact UIHandlers.functions_keepsRoles cookies c
  | endpointsPage => exact UIHandlers.endpoints_keepsRoles settings c
  | listProjects => exact ProjectHandlers.listProjects_keepsRoles c
  | getProject id => exact ProjectHandlers.getProject_keepsRoles c id
  | syncProject => exact ProjectHandlers.syncProject_keepsRoles settings c
  | createProjectInvite | updateProjectAccess | revokeProjectAccess => cases keeps
  | listProjectAccess => exact ProjectHandlers.listProjectAccess_keepsRoles c
  | createFunction body => exact FunctionHandlers.createFunction_keepsRoles settings c body
  | listFunctions search limit offset =>
      exact FunctionHandlers.listFunctions_keepsRoles c search limit offset
  | getFunction fnID => exact FunctionHandlers.getFunction_keepsRoles c fnID
  | updateFunction fnID body => exact FunctionHandlers.updateFunction_keepsRoles c fnID body
  | deleteFunction fnID => exact FunctionHandlers.deleteFunction_keepsRoles c fnID
  | listEndpoints search limit offset =>
      exact EndpointHandlers.listEndpoints_keepsRoles c search limit offset
  | getEndpoint epID => exact EndpointHandlers.getEndpoint_keepsRoles epID
  | updateEndpoint epID body => exact EndpointHandlers.updateEndpoint_keepsRoles epID body
  | actionsStatus params rounds => exact ActionHandlers.status_keepsRoles c params rounds

end Portal

end Litefunctions
