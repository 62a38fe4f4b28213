import Litefunctions.ProjectRoles
import Litefunctions.RejectedRequests
import Litefunctions.RoleKeepingHandlers

/-!
# What a request does to the roles

A request changes the roles by at most one action, whatever fails while it is
served: it creates a project for its user, lets its user join one, or updates
or revokes a role in the project of its cookie.  Transactions take place as a
whole or not at all.
-/

namespace Litefunctions

namespace Portal

open Program

variable {Response : Type}

/-- The session of the cookies is one of this user, and it is valid now. -/
def Cookies.IsOf (cookies : Cookies) (world : World) (userID : Bytes) : Prop :=
  ∃ row ∈ world.db.userSessions.rows, cookies.session = some row.sessionID ∧
    row.userID = userID ∧ world.clock < row.expiresAt

/-- The project of the cookie. -/
def Cookies.IsIn (cookies : Cookies) (projectID : Uuid) : Prop :=
  cookies.project.bind HexText.decode = some projectID.val

/-- The actions that a request of a user can perform. -/
inductive Performs (cookies : Cookies) (userID : Bytes) : Route Response → RoleAction → Prop
  | keep {route : Route Response} : Performs cookies userID route .keep
  | create {body : Option String} {projectID : Uuid} :
      Performs cookies userID (.user (.createProject body)) (.create userID projectID)
  | join {code : Option String} {projectID : Uuid} :
      Performs cookies userID (.user (.joinProjectByInvite code)) (.join userID projectID)
  | update {id text : String} {member : Bytes} {projectID : Uuid} {role : Role}
      (inProject : cookies.IsIn projectID) (named : scanHex id = some member)
      (isRole : Role.ofText text = some role) :
      Performs cookies userID (.project (.updateProjectAccess id (some text)))
        (.update member projectID role)
  | revoke {id : String} {member : Bytes} {projectID : Uuid}
      (inProject : cookies.IsIn projectID) (named : scanHex id = some member) :
      Performs cookies userID (.project (.revokeProjectAccess id)) (.revoke member projectID)

/-- The request of a user has changed the roles and the projects by the action. -/
structure Acted (request : Request Response) (userID : Bytes) (action : RoleAction)
    (before after : Database) : Prop where
  performs : Performs request.cookies userID request.route action
  roles : after.role? = action.apply before.role?
  projects : ∀ project ∈ after.projects.rows,
    project ∈ before.projects.rows ∨ action = .create userID project.id

/-- The request has changed the roles by an action of its user, if at all. -/
def ActsOnRoles (request : Request Response) (before : World) (after : Database) : Prop :=
  ∃ userID action, Acted request userID action before.db after ∧
    (action = .keep ∨ request.cookies.IsOf before userID)

theorem SameRoles.roles {before after : Database} (same : SameRoles before after) :
    after.role? = before.role? := by
  funext userID projectID
  simp only [Database.role?, Database.access?, same.access]

theorem Acted.of_sameRoles {request : Request Response} {before after : Database}
    (same : SameRoles before after) (userID : Bytes) : Acted request userID .keep before after where
  performs := .keep
  roles := same.roles
  projects _ member := .inl (same.projects ▸ member)

theorem Acted.of_changesRoles {request : Request Response} {userID : Bytes} {action : RoleAction}
    {before after : Database} (performs : Performs request.cookies userID request.route action)
    (changes : ChangesRoles before after action) : Acted request userID action before after where
  performs := performs
  roles := changes.roles
  projects _ member := .inl (changes.projects ▸ member)

/-! ### Rules -/

section Rules

variable {Result : Type} {post : Result → World → Prop} {world : World}

/-- Whatever the environment chooses, the end is as `post` says. -/
abbrev Ends (post : Result → World → Prop) (program : PortalProgram Result) (world : World) : Prop :=
  program.Ensures PortalCall.execute (fun _ _ => True) post world

theorem ends_of_keepsRoles (world : World) {program : PortalProgram Result}
    (keeps : KeepsRoles program) :
    Ends (fun _ after => SameRoles world.db after.db) program world :=
  have related := (keeps.along []).ensures_related
    (fun first after : World => SameRoles first.db after.db) (fun state => .refl state.db)
    fun _ circumstance _ state isQuiet related =>
      related.trans (PortalCall.sameRoles isQuiet circumstance state)
  related.imp (fun _ _ _ => trivial) fun _ _ => id

/-- A statement in a transaction. -/
theorem ends_statement {statement : Query}
    {next : Except DbError statement.Value → PortalProgram Result}
    (failed : ∀ after : World, after.saved = world.saved → Ends post (next (.error .failed)) after)
    (answered : ∀ (moment : Moment) (after : World),
      after.db = (statement.execute moment world.db).2 → after.saved = world.saved →
        Ends post (next (statement.execute moment world.db).1) after) :
    Ends post (call (.query statement) next) world := by
  apply And.intro trivial
  intro circumstance
  simp only [PortalCall.execute]
  cases circumstance.fault with
  | none => exact answered _ _ rfl rfl
  | refused => exact failed _ rfl
  | lost => exact failed _ rfl

/-- Another call in a transaction. -/
theorem ends_other {request : PortalCall} {next : request.Response → PortalProgram Result}
    (reads : request.reads = true)
    (answered : ∀ (response : request.Response) (after : World), after.db = world.db →
      after.saved = world.saved → Ends post (next response) after) :
    Ends post (call request next) world := by
  refine ⟨trivial, fun circumstance => answered _ _
    (PortalCall.db_execute_of_reads reads circumstance world) ?_⟩
  cases request with
  | query statement | createFunctionCRD req =>
      simp only [PortalCall.execute]
      cases circumstance.fault <;> rfl
  | begin | commit | rollback => cases reads
  | _ => rfl

/-- A transaction leaves the database as it was or as its work made it. -/
theorem ends_inTransaction {Value : Type} {refused failed : Reply}
    {work : PortalProgram (Except (List Reply) Value)} {next : Value → Replies}
    {done : World → Prop} (committable : Value → Database → Prop)
    (unchanged : ∀ after : World, after.db = world.db → done after)
    (works : ∀ begun : World, begun.db = world.db → begun.saved = some world.db →
      Ends (fun result after => after.saved = some world.db ∧
        ∀ value, result = .ok value → committable value after.db) work begun)
    (unanswered : ∀ value after, committable value after.db → done after)
    (continues : ∀ value after, committable value after.db →
      Ends (fun _ last => done last) (next value) after) :
    Ends (fun _ after => done after) (ProjectHandlers.inTransaction refused failed work next)
      world := by
  apply And.intro trivial
  intro circumstance
  simp only [PortalCall.execute]
  cases circumstance.fault with
  | refused | lost => exact unchanged _ rfl
  | none =>
      have worked := works { world with
        saved := some world.db
        clock := world.clock + circumstance.elapsed } rfl rfl
      show Ends _ (work >>= _) _
      refine ensures_bind.mpr (worked.imp (fun _ _ => id) ?_)
      rintro result after ⟨isSaved, commits⟩
      cases result with
      | error replies =>
          refine ⟨trivial, fun circumstance => unchanged _ ?_⟩
          simp [PortalCall.execute, isSaved]
      | ok value =>
          apply And.intro trivial
          intro circumstance
          simp only [PortalCall.execute]
          cases circumstance.fault with
          | none => exact continues value _ (commits value rfl)
          | refused => exact unchanged _ (by simp [isSaved])
          | lost => exact unanswered value _ (commits value rfl)

end Rules

/-! ### Handlers -/

section Handlers

variable {world : World} {c : Context} {cookies : Cookies}

/-- The handler of a route has changed the roles by an action of its user. -/
abbrev EndsWithAction (cookies : Cookies) (userID : Bytes) (route : Route Response)
    (program : Replies) (world : World) : Prop :=
  Ends (fun _ after => ∃ action, Acted ⟨cookies, route⟩ userID action world.db after.db) program world

theorem endsWithAction_of_keepsRoles {route : Route Response} {program : Replies}
    (keeps : KeepsRoles program) (userID : Bytes) :
    EndsWithAction cookies userID route program world :=
  (ends_of_keepsRoles world keeps).imp (fun _ _ => id) fun _ _ same => ⟨.keep, .of_sameRoles same userID⟩

theorem endsWithAction_of_statement {route : Route Response} {statement : Query}
    {next : Except DbError statement.Value → Replies} {userID : Bytes}
    (changes : ∀ moment, ∃ action, ChangesRoles world.db (statement.execute moment world.db).2 action ∧
      Performs cookies userID route action)
    (replies : ∀ result, ∃ reply, next result = done reply) :
    EndsWithAction cookies userID route (call (.query statement) next) world := by
  apply And.intro trivial
  intro circumstance
  obtain ⟨action, changed, performs⟩ := changes ⟨world.clock + circumstance.elapsed, circumstance.fresh⟩
  have ends : ∀ result (after : World),
      (after.db = world.db ∨ ChangesRoles world.db after.db action) →
      Ends (fun _ last => ∃ action, Acted ⟨cookies, route⟩ userID action world.db last.db)
        (next result) after := by
    intro result after effect
    obtain ⟨reply, isDone⟩ := replies result
    rw [isDone]
    rcases effect with same | changed
    · exact ⟨.keep, .of_sameRoles (same ▸ .refl _) userID⟩
    · exact ⟨action, .of_changesRoles performs changed⟩
  simp only [PortalCall.execute]
  cases circumstance.fault with
  | none => exact ends _ _ (.inr changed)
  | refused => exact ends _ _ (.inl rfl)
  | lost => exact ends _ _ (.inr changed)

theorem endsWithAction_mustGetProject {route : Route Response} {handler : ProjectContext → Replies}
    (ends : ∀ project ∈ c.project, EndsWithAction cookies c.userID route (handler project) world) :
    EndsWithAction cookies c.userID route (c.mustGetProject handler) world := by
  unfold Context.mustGetProject
  cases hasProject : c.project with
  | none => exact ⟨.keep, .of_sameRoles (.refl _) c.userID⟩
  | some project => exact ends project hasProject

theorem updateProjectAccess_ends {id : String} {body : Option String}
    (inCookie : ∀ project ∈ c.project, cookies.IsIn project.projectUUID) :
    EndsWithAction cookies c.userID (.project (.updateProjectAccess id body) : Route Response)
      (ProjectHandlers.updateProjectAccess c id body) world := by
  apply endsWithAction_mustGetProject
  intro project hasProject
  cases body with
  | none => exact ⟨.keep, .of_sameRoles (.refl _) c.userID⟩
  | some text =>
      refine endsWithAction_of_statement (fun moment => ?_) fun result => ?_
      · obtain ⟨action, changes, rfl | ⟨member, role, named, isRole, rfl⟩⟩ :=
          updateUserProjectRole_changes moment world.db project.projectUUID (scanHex id) text
        · exact ⟨_, changes, .keep⟩
        · exact ⟨_, changes, .update (inCookie project hasProject) named isRole⟩
      · cases result <;> exact ⟨_, rfl⟩

theorem revokeProjectAccess_ends {id : String}
    (inCookie : ∀ project ∈ c.project, cookies.IsIn project.projectUUID) :
    EndsWithAction cookies c.userID (.project (.revokeProjectAccess id) : Route Response)
      (ProjectHandlers.revokeProjectAccess c id) world := by
  apply endsWithAction_mustGetProject
  intro project hasProject
  refine endsWithAction_of_statement (fun moment => ?_) fun result => ?_
  · obtain ⟨action, changes, rfl | ⟨member, named, rfl⟩⟩ :=
      revokeProjectAccess_changes moment world.db project.projectUUID (scanHex id)
    · exact ⟨_, changes, .keep⟩
    · exact ⟨_, changes, .revoke (inCookie project hasProject) named⟩
  · cases result <;> exact ⟨_, rfl⟩

theorem createInviteInTx_ends (user : Bytes) (project : Uuid) {before : Database}
    (begun : world.db = before) (isSaved : world.saved = some before) :
    Ends (fun result after => after.saved = some before ∧
        ∀ value, result = .ok value → SameRoles before after.db)
      (ProjectHandlers.createInviteInTx user project) world := by
  apply ends_other rfl
  intro role after kept saved
  cases role with
  | error err => exact ⟨saved.trans isSaved, nofun⟩
  | ok role =>
      show Ends _ (if role ≠ "owner" then _ else _) _
      split
      · exact ⟨saved.trans isSaved, nofun⟩
      · apply ends_other rfl
        intro draws afterDraw keptDraw savedDraw
        apply ends_other rfl
        intro issued afterTime keptTime savedTime
        have savedStill : afterTime.saved = some before :=
          savedTime.trans (savedDraw.trans (saved.trans isSaved))
        have dbStill : afterTime.db = before := keptTime.trans (keptDraw.trans (kept.trans begun))
        refine ends_statement (fun last savedLast => ⟨savedLast.trans savedStill, nofun⟩) ?_
        intro moment last dbLast savedLast
        have same := Query.sameRoles (.access (.createProjectInvite project
          (generateInviteCode draws) user (issued + ProjectHandlers.inviteLifetime))) rfl moment afterTime.db
        rw [← dbLast, dbStill] at same
        cases (Query.execute moment (.access (.createProjectInvite project
            (generateInviteCode draws) user (issued + ProjectHandlers.inviteLifetime))) afterTime.db).1 with
        | error err => exact ⟨savedLast.trans savedStill, nofun⟩
        | ok invite => exact ⟨savedLast.trans savedStill, fun _ _ => same⟩

theorem joinInTx_ends (user : Bytes) (code : String) {before : Database}
    (begun : world.db = before) (isSaved : world.saved = some before) :
    Ends (fun result after => after.saved = some before ∧ ∀ value, result = .ok value →
        ChangesRoles before after.db (.join user value.projectID))
      (ProjectHandlers.joinInTx user code) world := by
  apply ends_other rfl
  intro found after kept saved
  cases found with
  | error err => exact ⟨saved.trans isSaved, by rintro _ ⟨⟩⟩
  | ok invite =>
      show Ends _ (if invite.createdBy = user then _ else _) _
      have savedStill : after.saved = some before := saved.trans isSaved
      have dbStill : after.db = before := kept.trans begun
      split
      · exact ⟨savedStill, by rintro _ ⟨⟩⟩
      · refine ends_statement (fun last savedLast => ⟨savedLast.trans savedStill, by rintro _ ⟨⟩⟩) ?_
        intro moment added dbAdded savedAdded
        rcases addViewerToProject_cases moment after.db user invite.projectID with
          ⟨err, isError⟩ | ⟨joined, isOk, changes⟩
        · rw [Query.execute, isError]
          exact ⟨savedAdded.trans savedStill, by rintro _ ⟨⟩⟩
        · rw [Query.execute, isOk] at dbAdded
          rw [Query.execute, isOk]
          refine ends_statement
            (fun last savedLast => ⟨savedLast.trans (savedAdded.trans savedStill), by rintro _ ⟨⟩⟩) ?_
          intro moment last dbLast savedLast
          have savedEnd : last.saved = some before := savedLast.trans (savedAdded.trans savedStill)
          have same := Query.sameRoles (.access (.markInviteUsed invite.id)) rfl moment added.db
          have joins : ChangesRoles before last.db (.join user invite.projectID) := by
            rw [← dbLast, dbAdded] at same
            rw [dbStill] at changes
            exact ⟨same.projects.trans changes.projects, same.roles.trans changes.roles⟩
          cases (Query.execute moment (.access (.markInviteUsed invite.id)) added.db).1 with
          | error err => exact ⟨savedEnd, by rintro _ ⟨⟩⟩
          | ok _ =>
              apply And.intro savedEnd
              intro value isValue
              rw [← Except.ok.inj isValue]
              exact joins

/-- Roles and projects after the work of `CreateProject`. -/
structure Creates (user : Bytes) (before after : Database) (project : Project) : Prop where
  roles : after.role? = (RoleAction.create user project.id).apply before.role?
  projects : ∀ row ∈ after.projects.rows, row ∈ before.projects.rows ∨ row = project

private theorem addWorkflow_ends (user : Bytes) (project : Project)
    (repoName : String) {before : Database} (isSaved : world.saved = some before)
    (creates : Creates user before world.db project) :
    Ends (fun result after => after.saved = some before ∧ ∀ value, result = .ok value →
        Creates user before after.db value)
      (ProjectHandlers.createProjectInTx.addWorkflow project repoName) world := by
  refine ends_other rfl fun added after kept saved => ?_
  cases added with
  | error text => exact ⟨saved.trans isSaved, nofun⟩
  | ok _ =>
      apply And.intro (saved.trans isSaved)
      intro value isValue
      rw [← Except.ok.inj isValue, kept]
      exact creates

private theorem addWebhook_ends (settings : Settings) (user : Bytes) (project : Project)
    (repoName : String) {before : Database} (isSaved : world.saved = some before)
    (creates : Creates user before world.db project) :
    Ends (fun result after => after.saved = some before ∧ ∀ value, result = .ok value →
        Creates user before after.db value)
      (ProjectHandlers.createProjectInTx.addWebhook settings project repoName) world := by
  refine ends_other rfl fun added after kept saved => ?_
  have workflow := addWorkflow_ends user project repoName (saved.trans isSaved)
    (kept ▸ creates)
  cases added with
  | ok _ => exact workflow
  | error text =>
      show Ends _ (if ProjectHandlers.alreadyExists text = true then _ else _) _
      split
      · exact workflow
      · exact ⟨saved.trans isSaved, nofun⟩

theorem createProjectInTx_ends (settings : Settings) (c : Context) (name : String)
    {before : Database} (begun : world.db = before) (isSaved : world.saved = some before) :
    Ends (fun result after => after.saved = some before ∧ ∀ value, result = .ok value →
        Creates c.userID before after.db value)
      (ProjectHandlers.createProjectInTx settings c name) world := by
  refine ends_statement (fun last savedLast => ⟨savedLast.trans isSaved, by rintro _ ⟨⟩⟩) ?_
  intro moment created dbCreated savedCreated
  have savedStill : created.saved = some before := savedCreated.trans isSaved
  revert dbCreated
  simp only [Query.execute, ProjectQuery.execute]
  split
  · exact fun _ => ⟨savedStill, by rintro _ ⟨⟩⟩
  · split
    · exact fun _ => ⟨savedStill, by rintro _ ⟨⟩⟩
    · next projects inserted =>
        intro dbCreated
        generalize isProject : (⟨moment.fresh, name, c.userID, moment.now⟩ : Project) = project at inserted
        have insertedOnly : ∀ row ∈ created.db.projects.rows, row ∈ before.projects.rows ∨
            row = project := by
          rw [dbCreated, ← begun]
          exact fun row member => (Table.mem_insert inserted).mp member
        have rolesStill : created.db.role? = before.role? := by
          rw [dbCreated, ← begun]
          rfl
        have freshID : moment.fresh = project.id := by rw [← isProject]
        rw [← isProject]
        refine ends_statement (fun last savedLast => ⟨savedLast.trans savedStill, by rintro _ ⟨⟩⟩) ?_
        intro later owned dbOwned savedOwned
        simp only [isProject] at dbOwned ⊢
        rcases addProjectOwner_cases later created.db c.userID moment.fresh with
          ⟨err, isError⟩ | ⟨after, isOk, changes⟩
        · rw [Query.execute, isError]
          exact ⟨savedOwned.trans savedStill, by rintro _ ⟨⟩⟩
        · rw [Query.execute, isOk] at dbOwned
          rw [Query.execute, isOk]
          have creates : Creates c.userID before owned.db project := by
            rw [dbOwned]
            refine ⟨changes.roles.trans (by rw [rolesStill, freshID]), fun row member => ?_⟩
            exact insertedOnly row (changes.projects ▸ member)
          apply ends_other rfl
          intro repo afterRepo keptRepo savedRepo
          have savedNow : afterRepo.saved = some before :=
            savedRepo.trans (savedOwned.trans savedStill)
          have webhook (repoName : String) := addWebhook_ends settings c.userID project repoName
            savedNow (keptRepo ▸ creates)
          cases repo with
          | ok repoName => exact webhook repoName
          | error text =>
              show Ends _ (if ProjectHandlers.alreadyExists text = true then _ else _) _
              split
              · exact webhook name
              · exact ⟨savedNow, by rintro _ ⟨⟩⟩

theorem createProject_ends {settings : Settings} {body : Option String} :
    EndsWithAction cookies c.userID (.user (.createProject body) : Route Response)
      (ProjectHandlers.createProject settings c body) world := by
  have unchanged : ∀ after : World, after.db = world.db → ∃ action,
      Acted (⟨cookies, .user (.createProject body)⟩ : Request Response) c.userID action world.db
        after.db :=
    fun after same => ⟨.keep, .of_sameRoles (same ▸ .refl _) c.userID⟩
  have created : ∀ project (after : Database), Creates c.userID world.db after project →
      ∃ action, Acted (⟨cookies, .user (.createProject body)⟩ : Request Response) c.userID action
        world.db after := by
    intro project after creates
    refine ⟨_, .create, creates.roles, fun row member => ?_⟩
    exact (creates.projects row member).imp_right fun isProject => by rw [isProject]
  unfold ProjectHandlers.createProject
  cases body with
  | none => exact unchanged world rfl
  | some reqName =>
      apply ends_other rfl
      intro client after kept saved
      cases client with
      | error text => exact unchanged after kept
      | ok _ =>
          refine ends_inTransaction (fun project db => Creates c.userID world.db db project)
            (fun last same => unchanged last (same.trans kept))
            (fun begun sameDb isSaved => ?_)
            (fun project last creates => created project last.db creates)
            fun project last creates => ?_
          · rw [kept] at sameDb isSaved ⊢
            exact createProjectInTx_ends settings c _ sameDb isSaved
          · have synced := ends_of_keepsRoles last
              (FunctionHandlers.syncRepoFunctionsToDb_keepsRoles settings project.id
                (reqName.map settings.toLower) c.userID)
            refine ensures_bind.mpr (synced.imp (fun _ _ => id) fun _ final same => ?_)
            refine created project final.db ⟨same.roles.trans creates.roles, fun row member => ?_⟩
            exact creates.projects row (same.projects ▸ member)

theorem joinProjectByInvite_ends {code : Option String} :
    EndsWithAction cookies c.userID (.user (.joinProjectByInvite code) : Route Response)
      (ProjectHandlers.joinProjectByInvite c code) world := by
  have unchanged : ∀ after : World, after.db = world.db → ∃ action,
      Acted (⟨cookies, .user (.joinProjectByInvite code)⟩ : Request Response) c.userID action world.db
        after.db :=
    fun after same => ⟨.keep, .of_sameRoles (same ▸ .refl _) c.userID⟩
  have joined : ∀ (invite : ProjectInvite) (after : World),
      ChangesRoles world.db after.db (.join c.userID invite.projectID) →
      ∃ action, Acted (⟨cookies, .user (.joinProjectByInvite code)⟩ : Request Response) c.userID
        action world.db after.db :=
    fun invite after changes => ⟨_, .of_changesRoles .join changes⟩
  unfold ProjectHandlers.joinProjectByInvite
  split
  · exact unchanged world rfl
  · exact ends_inTransaction
      (fun invite db => ChangesRoles world.db db (.join c.userID invite.projectID))
      unchanged (fun begun sameDb isSaved => joinInTx_ends c.userID _ sameDb isSaved) joined joined

theorem createProjectInvite_ends :
    EndsWithAction cookies c.userID (.project .createProjectInvite : Route Response)
      (ProjectHandlers.createProjectInvite c) world := by
  have same : ∀ after : World, SameRoles world.db after.db → ∃ action,
      Acted (⟨cookies, .project .createProjectInvite⟩ : Request Response) c.userID action world.db
        after.db :=
    fun after same => ⟨.keep, .of_sameRoles same c.userID⟩
  apply endsWithAction_mustGetProject
  intro project hasProject
  exact ends_inTransaction (fun _ db => SameRoles world.db db)
    (fun after kept => same after (kept ▸ .refl _))
    (fun begun sameDb isSaved => createInviteInTx_ends c.userID project.projectUUID sameDb isSaved)
    (fun _ => same) fun _ => same

theorem ProjectRoute.handle_ends {settings : Settings} {route : ProjectRoute}
    (inCookie : ∀ project ∈ c.project, cookies.IsIn project.projectUUID) :
    EndsWithAction cookies c.userID (.project route : Route Response)
      (route.handle settings cookies c) world := by
  cases keeps : route.mayChangeRoles with
  | false => exact endsWithAction_of_keepsRoles (handle_keepsRoles keeps settings cookies c) c.userID
  | true =>
      cases route with
      | updateProjectAccess id body => exact updateProjectAccess_ends inCookie
      | revokeProjectAccess id => exact revokeProjectAccess_ends inCookie
      | createProjectInvite => exact createProjectInvite_ends
      | _ => cases keeps

theorem UserRoute.handle_ends {settings : Settings} {route : UserRoute} :
    EndsWithAction cookies c.userID (.user route : Route Response)
      (route.handle settings cookies c) world := by
  cases route with
  | dashboard => exact endsWithAction_of_keepsRoles (UIHandlers.dashboard_keepsRoles cookies c) c.userID
  | createProject body => exact createProject_ends
  | joinProjectByInvite code => exact joinProjectByInvite_ends

end Handlers

/-! ### Requests -/

section Requests

variable {world : World} {settings : Settings} {authn : Passkeys.WebAuthn Response}

theorem authMiddleware_ends (cookies : Cookies) (path : String) :
    Ends (fun result after => after.db = world.db ∧ ∀ c, result = .ok c →
        cookies.IsOf world c.userID ∧ c.project = none)
      (authMiddleware cookies path) world := by
  unfold authMiddleware
  cases hasCookie : cookies.session with
  | none => exact ⟨rfl, by rintro _ ⟨⟩⟩
  | some sessionID =>
      refine ensures_read rfl trivial (fun after kept => ⟨kept.database, by rintro _ ⟨⟩⟩)
        fun moment after read notPast => ?_
      obtain ⟨kept, -, -⟩ := read
      simp only [Query.execute, AuthQuery.execute]
      cases found : world.db.userSessions.find? fun row =>
          row.sessionID = sessionID ∧ moment.now < row.expiresAt with
      | none => exact ⟨kept, by rintro _ ⟨⟩⟩
      | some row =>
          obtain ⟨member, isRow⟩ := Table.find?_some found
          obtain ⟨sameID, valid⟩ := of_decide_eq_true isRow
          have isOf : cookies.IsOf world row.userID :=
            ⟨row, member, hasCookie.trans (congrArg some sameID.symm), rfl, notPast.trans_lt valid⟩
          refine ensures_reading rfl trivial (fun last keptLast => ⟨keptLast.trans kept, by rintro _ ⟨⟩⟩)
            fun later last keptLast => ?_
          cases (Query.execute later (.auth (.getUserByID row.userID)) after.db).1 with
          | error err => exact ⟨keptLast.trans kept, by rintro _ ⟨⟩⟩
          | ok user =>
              apply And.intro (keptLast.trans kept)
              intro c isContext
              rw [← Except.ok.inj isContext]
              exact ⟨isOf, rfl⟩

theorem projectMiddleware_ends (cookies : Cookies) :
    Ends (fun result after => after.db = world.db ∧ ∀ project, result = .ok project →
        cookies.IsIn project.projectUUID)
      (projectMiddleware cookies) world := by
  unfold projectMiddleware
  cases hasCookie : cookies.project with
  | none => exact ⟨rfl, nofun⟩
  | some projectIDHex =>
      simp only
      cases decoded : HexText.decode projectIDHex with
      | none => exact ⟨rfl, nofun⟩
      | some projectIDBytes =>
          simp only
          split
          · exact ⟨rfl, nofun⟩
          · next long =>
              have isIn : cookies.IsIn (.copy projectIDBytes) := by
                have wholeLength : projectIDBytes.length = 16 := not_not.mp long
                rw [Cookies.IsIn, hasCookie, Option.bind_some, decoded]
                simp [Uuid.copy, wholeLength]
              refine ensures_reading rfl trivial (fun after kept => ⟨kept, nofun⟩)
                fun moment after kept => ?_
              cases (Query.execute moment (.project (.getProjectByID (.copy projectIDBytes)))
                  world.db).1 with
              | error err => exact ⟨kept, nofun⟩
              | ok proj =>
                  refine @ensures_keeping _ _ _ _ (.repo proj.name .new) _ rfl trivial
                    fun isNew last keptLast => ?_
                  cases isNew with
                  | false => exact ⟨keptLast.trans kept, nofun⟩
                  | true =>
                      apply And.intro (keptLast.trans kept)
                      intro project isProject
                      rw [← Except.ok.inj isProject]
                      exact isIn

/-- A request changes the roles by at most one action, performed by its user. -/
theorem serve_actsOnRoles (settings : Settings) (authn : Passkeys.WebAuthn Response) (world : World)
    (request : Request Response) :
    Ends (fun _ after => ActsOnRoles request world after.db) (serve settings authn request)
      world := by
  obtain ⟨cookies, route⟩ := request
  have keeps : ∀ after : World, after.db = world.db →
      ActsOnRoles (⟨cookies, route⟩ : Request Response) world after.db :=
    fun after same => ⟨[], .keep, .of_sameRoles (same ▸ .refl _) [], .inl rfl⟩
  have acts : ∀ {program : Replies} {c : Context} {middle : World}, middle.db = world.db →
      cookies.IsOf world c.userID → EndsWithAction cookies c.userID route program middle →
      Ends (fun _ after => ActsOnRoles (⟨cookies, route⟩ : Request Response) world after.db)
        program middle := by
    intro program c middle same isOf ends
    apply ends.imp (fun _ _ => id)
    rintro replies after ⟨action, acted⟩
    exact ⟨c.userID, action, same ▸ acted, .inr isOf⟩
  cases route with
  | passkey route =>
      refine (ends_of_keepsRoles _ (route.handle_keepsRoles settings authn cookies)).imp
        (fun _ _ => id) fun _ after same => ?_
      exact ⟨[], .keep, .of_sameRoles same [], .inl rfl⟩
  | user route =>
      refine ensures_bind.mpr ((authMiddleware_ends cookies route.path).imp (fun _ _ => id) ?_)
      rintro (replies | c) after ⟨same, valid⟩
      · exact keeps after same
      · exact acts same (valid c rfl).1 route.handle_ends
  | project route =>
      refine ensures_bind.mpr ((authMiddleware_ends cookies route.path).imp (fun _ _ => id) ?_)
      rintro (replies | c) after ⟨same, valid⟩
      · exact keeps after same
      · obtain ⟨isOf, noProject⟩ := valid c rfl
        refine ensures_bind.mpr ((projectMiddleware_ends cookies).imp (fun _ _ => id) ?_)
        rintro (replies | project) last ⟨sameLast, inCookie⟩
        · refine ensures_bind.mpr ((acts (sameLast.trans same) isOf
            (route.handle_ends (c := c) fun project hasProject => ?_)).imp (fun _ _ => id) fun _ _ => id)
          rw [noProject] at hasProject
          cases hasProject
        · apply acts (c := { c with project := some project }) (sameLast.trans same) isOf
          apply route.handle_ends
          intro other isProject
          rw [← Option.some.inj isProject]
          exact inCookie project rfl

end Requests

end Portal

end Litefunctions
