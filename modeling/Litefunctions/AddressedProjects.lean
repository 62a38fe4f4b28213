import Litefunctions.SelectedProjects

/-!
# The projects that a request addresses

A request behind both middlewares works on the project of its cookie, on the
projects of the rows whose id is in its path, and on the projects of the
functions that endpoints of the cookie's project name.  The middlewares look up
the user of the session and the project of the cookie, but not whether the one
has access to the other.
-/

namespace Litefunctions

namespace Portal

open Program

/-! ### Addressed projects -/

/-- The project of the cookie. -/
def Cookies.projectOf (cookies : Cookies) (db : Database) : Option Project :=
  (cookies.project.bind HexText.decode).bind fun bytes =>
    if bytes.length = 16 then db.project? (.copy bytes) else none

/-- The database accepts the limit and the offset of a list. -/
def acceptsPage (limit offset : Option String) : Bool :=
  0 ≤ int32 (atoi (limit.getD "100")).1 ∧ 0 ≤ int32 (atoi (offset.getD "0")).1

/-- The routes that join the endpoints of the cookie's project with functions. -/
def ProjectRoute.joins : ProjectRoute → Bool
  | functionsPage | endpointsPage | syncProject | listEndpoints _ _ _ => true
  | listFunctions _ limit offset => acceptsPage limit offset
  | _ => false

/-- The projects that a request addresses. -/
def addressed (db : Database) (cookies : Cookies) (route : ProjectRoute) : List Uuid :=
  (cookies.projectOf db).toList.flatMap (fun project =>
    project.id :: if route.joins then db.joinedProjects project.id else []) ++ route.named db

/-- The cookie names a session of the user that is valid now. -/
def Cookies.BelongsTo (cookies : Cookies) (userID : Bytes) (world : World) : Prop :=
  ∃ sessionID, cookies.session = some sessionID ∧ ∃ row ∈ world.db.userSessions.rows,
    row.sessionID = sessionID ∧ world.clock < row.expiresAt ∧ row.userID = userID ∧
      (world.db.user? userID).isSome

/-- The user has a row in `user_project_access` for the project. -/
def HasAccess (userID : Bytes) (db : Database) (projectID : Uuid) : Prop :=
  ∃ row ∈ db.access.rows, row.userID = userID ∧ row.projectID = projectID

/-- The projects that the call touches are allowed. -/
def StaysAt (isAllowed : Uuid → Prop) (request : PortalCall) (before : World) : Prop :=
  ∀ projectID ∈ request.touches before.db, isAllowed projectID

/-- Every call touches allowed projects only. -/
abbrev Stays {Result : Type} (isAllowed : Uuid → Prop) (program : PortalProgram Result)
    (world : World) : Prop :=
  Ensures (StaysAt isAllowed) (fun _ _ => True) program world

section Projects

variable {db : Database} {project : Project}

theorem mem_of_project? {id : Uuid} (found : db.project? id = some project) :
    project ∈ db.projects.rows ∧ project.id = id := by
  obtain ⟨member, isID⟩ := Table.find?_some found
  exact ⟨member, of_decide_eq_true isID⟩

/-- Only the project itself has its name. -/
theorem eq_of_mem_namedProjects (member : project ∈ db.projects.rows) {projectID : Uuid}
    (named : projectID ∈ db.namedProjects project.name) : projectID = project.id := by
  obtain ⟨other, otherMember, rfl⟩ := List.mem_map.mp named
  obtain ⟨stored, sameName⟩ := List.mem_filter.mp otherMember
  have same : other = project := by
    apply Table.eq_of_conflicts (fun first second => ?_) stored member
    · simp [Project.conflicts, of_decide_eq_true sameName]
    · simp only [Project.conflicts, eq_comm]
  rw [same]

theorem mem_namedProjects (member : project ∈ db.projects.rows) :
    project.id ∈ db.namedProjects project.name :=
  List.mem_map.mpr ⟨project, List.mem_filter.mpr ⟨member, decide_eq_true rfl⟩, rfl⟩

end Projects

/-! ### Own projects -/

/-- The project is allowed, and so is every project with its name. -/
structure OnProject (isAllowed : Uuid → Prop) (project : ProjectContext) (world : World) : Prop where
  uuid : isAllowed project.projectUUID
  named : ∀ projectID ∈ world.db.namedProjects project.projectName, isAllowed projectID

/-- Whether a call keeps the projects and no transaction is about. -/
def PortalCall.keepsProjects : PortalCall → Bool
  | query (.project statement) => statement.reads
  | begin | commit | rollback => false
  | _ => true

theorem Query.projects_execute {statement : Query}
    (keeps : (PortalCall.query statement).keepsProjects = true) (moment : Moment) (db : Database) :
    (statement.execute moment db).2.projects = db.projects := by
  cases statement with
  | project statement =>
      have same := @Query.execute_of_reads (.project statement) keeps moment db
      exact congrArg Database.projects same
  | access statement =>
      cases statement <;> simp only [Query.execute, AccessQuery.execute, AccessQuery.insertAccess,
        AccessQuery.setRole] <;> repeat' split
      all_goals rfl
  | function statement =>
      cases statement <;> simp only [Query.execute, FunctionQuery.execute, FunctionQuery.change] <;>
        repeat' split
      all_goals rfl
  | endpoint statement =>
      cases statement <;> simp only [Query.execute, EndpointQuery.execute] <;> repeat' split
      all_goals rfl
  | auth statement =>
      cases statement <;> simp only [Query.execute, AuthQuery.execute] <;> repeat' split
      all_goals rfl

theorem PortalCall.projects_execute {request : PortalCall} (keeps : request.keepsProjects = true)
    (circumstance : Circumstance) (world : World) :
    (PortalCall.execute request circumstance world).2.db.projects = world.db.projects := by
  cases request with
  | query statement =>
      have kept := Query.projects_execute keeps
      simp only [PortalCall.execute]
      cases circumstance.fault with
      | refused => rfl
      | none | lost => exact kept _ _
  | begin | commit | rollback => cases keeps
  | createFunctionCRD req =>
      simp only [PortalCall.execute]
      cases circumstance.fault <;> rfl
  | _ => rfl

/-- The project of the middleware, if there is one, is allowed. -/
def IsAdmitted (isAllowed : Uuid → Prop) (c : Context) (world : World) : Prop :=
  ∀ project, c.project = some project → OnProject isAllowed project world

section Own

variable {isAllowed : Uuid → Prop} {c : Context} {project : ProjectContext} {world : World}
variable {Result : Type} {post : Result → World → Prop}

theorem IsAdmitted.congr {after : World} (admitted : IsAdmitted isAllowed c world)
    (same : after.db.projects = world.db.projects) : IsAdmitted isAllowed c after := by
  intro project isProject
  have own := admitted project isProject
  refine ⟨own.uuid, fun projectID named => own.named projectID ?_⟩
  rwa [Database.namedProjects, same] at named

/-- A call that stays on the project in every world. -/
structure IsOwn (isAllowed : Uuid → Prop) (c : Context) (request : PortalCall) : Prop where
  keeps : request.keepsProjects = true
  stays : ∀ before, IsAdmitted isAllowed c before → StaysAt isAllowed request before

theorem isOwn_repo (isProject : c.project = some project) (request : RepoCall) :
    IsOwn isAllowed c (.repo project.projectName request) :=
  ⟨rfl, fun _ admitted => (admitted project isProject).named⟩

theorem isOwn_vcs (isProject : c.project = some project) (request : VcsCall) :
    IsOwn isAllowed c (.vcs project.projectName request) :=
  ⟨rfl, fun _ admitted => (admitted project isProject).named⟩

theorem isOwn_untouching {request : PortalCall} (keeps : request.keepsProjects = true)
    (none : ∀ db, request.touches db = []) : IsOwn isAllowed c request := by
  refine ⟨keeps, fun before _ projectID touched => ?_⟩
  rw [none] at touched
  cases touched

theorem isOwn_listing (isProject : c.project = some project) {request : PortalCall}
    (keeps : request.keepsProjects = true)
    (touches : ∀ db, request.touches db = [project.projectUUID]) : IsOwn isAllowed c request := by
  refine ⟨keeps, fun before admitted projectID touched => ?_⟩
  rw [touches, List.mem_singleton] at touched
  exact touched ▸ (admitted project isProject).uuid

/-- A program of own calls stays on the project, also after it. -/
theorem stays_of_own {program : PortalProgram Result} (makes : program.Makes (IsOwn isAllowed c))
    (admitted : IsAdmitted isAllowed c world) :
    Ensures (StaysAt isAllowed) (fun _ after => IsAdmitted isAllowed c after) program world := by
  have ensures : program.Ensures PortalCall.execute
      (fun request after => IsOwn isAllowed c request ∧ IsAdmitted isAllowed c after)
      (fun _ after => IsAdmitted isAllowed c after) world := by
    apply (makes.along []).ensures _ admitted
    intro request circumstance before isOwn admittedBefore
    exact admittedBefore.congr (PortalCall.projects_execute isOwn.keeps circumstance before)
  apply ensures.imp _ fun _ _ => id
  intro request before holds
  exact holds.1.stays before holds.2

theorem stays_own_call {request : PortalCall} {next : request.Response → PortalProgram Result}
    (isOwn : IsOwn isAllowed c request) (admitted : IsAdmitted isAllowed c world)
    (rest : ∀ response after, IsAdmitted isAllowed c after →
      Ensures (StaysAt isAllowed) post (next response) after) :
    Ensures (StaysAt isAllowed) post (call request next) world := by
  refine ⟨isOwn.stays world admitted, fun circumstance => rest _ _ ?_⟩
  exact admitted.congr (PortalCall.projects_execute isOwn.keeps circumstance world)

/-- Only the first call depends on what the database holds. -/
theorem stays_first (request : PortalCall) {next : request.Response → PortalProgram Result}
    (keeps : request.keepsProjects = true) (stays : StaysAt isAllowed request world)
    (admitted : IsAdmitted isAllowed c world)
    (rest : ∀ response, (next response).Makes (IsOwn isAllowed c)) :
    Ensures (StaysAt isAllowed) (fun _ after => IsAdmitted isAllowed c after) (call request next)
      world := by
  apply And.intro stays
  intro circumstance
  have same := PortalCall.projects_execute keeps circumstance world
  exact stays_of_own (rest _) (admitted.congr same)

end Own

/-! ### The middlewares -/

section Middlewares

variable {cookies : Cookies} {userID : Bytes} {world : World} {isAllowed : Uuid → Prop}
variable {Result : Type} {post : Result → World → Prop}

theorem staysAt_auth {before : World} (statement : AuthQuery) :
    StaysAt isAllowed (.query (.auth statement)) before := by
  intro projectID touched
  cases touched

/-- The session that a cookie of the user names. -/
theorem Cookies.BelongsTo.eq_of_session {sessionID : String} {session : UserSession}
    (belongs : cookies.BelongsTo userID world) (hasCookie : cookies.session = some sessionID)
    (member : session ∈ world.db.userSessions.rows) (sameID : session.sessionID = sessionID) :
    session.userID = userID := by
  obtain ⟨otherID, hasOther, row, rowMember, isSession, -, isUser, -⟩ := belongs
  obtain rfl := Option.some.inj (hasCookie.symm.trans hasOther)
  have same : session = row := by
    apply Table.eq_of_conflicts (fun first second => ?_) member rowMember
    · exact decide_eq_true (sameID.trans isSession.symm)
    · simp only [UserSession.conflicts, eq_comm]
  rw [same, isUser]

theorem authMiddleware_stays (belongs : cookies.BelongsTo userID world) (path : String) :
    Ensures (StaysAt isAllowed)
      (fun result after => after.db = world.db ∧
        ∀ c, result = .ok c → c.userID = userID ∧ c.project = none)
      (authMiddleware cookies path) world := by
  unfold authMiddleware getUserSession
  cases hasCookie : cookies.session with
  | none => exact ⟨rfl, by simp⟩
  | some sessionID =>
      refine ensures_bind.mpr (ensures_reading rfl (staysAt_auth _) (fun after same => ?_)
        fun moment after same => ?_)
      · exact ⟨same, by simp⟩
      · simp only [Query.execute, AuthQuery.execute]
        cases found : world.db.userSessions.find? fun row =>
            row.sessionID = sessionID ∧ moment.now < row.expiresAt with
        | none => exact ⟨same, by simp⟩
        | some session =>
            obtain ⟨member, isSession⟩ := Table.find?_some found
            have isUser := belongs.eq_of_session hasCookie member (of_decide_eq_true isSession).1
            refine ensures_reading rfl (staysAt_auth _) (fun last later => ?_)
              fun moment last later => ?_
            · exact ⟨later.trans same, by simp⟩
            · simp only [Query.execute, AuthQuery.execute]
              cases after.db.user? session.userID with
              | none => exact ⟨later.trans same, by simp⟩
              | some user =>
                  apply And.intro (later.trans same)
                  intro c isContext
                  rw [← Except.ok.inj isContext]
                  exact ⟨isUser, rfl⟩

/-- Where nothing fails, the user is admitted. -/
theorem authMiddleware_answered (belongs : cookies.BelongsTo userID world) {path : String}
    {next : Except (List Reply) Context → PortalProgram Result}
    (ensures : Ensures (StaysAt isAllowed) post (authMiddleware cookies path >>= next) world) :
    ∃ userName, Ensures (StaysAt isAllowed) post (next (.ok ⟨userID, userName, none⟩)) world := by
  have session := belongs
  obtain ⟨sessionID, hasCookie, row, member, sameID, valid, isUser, hasUser⟩ := session
  unfold authMiddleware getUserSession at ensures
  simp only [hasCookie] at ensures
  have read := reading_answered rfl (ensures_bind.mp (ensures_bind.mp ensures))
  have isSession : (world.db.userSessions.find? fun row =>
      row.sessionID = sessionID ∧ world.clock < row.expiresAt).isSome :=
    List.find?_isSome.mpr ⟨row, member, decide_eq_true ⟨sameID, valid⟩⟩
  obtain ⟨session, found⟩ := Option.isSome_iff_exists.mp isSession
  obtain ⟨sessionMember, isFound⟩ := Table.find?_some found
  have ofUser := belongs.eq_of_session hasCookie sessionMember (of_decide_eq_true isFound).1
  simp only [Query.execute, AuthQuery.execute, found, oneRow] at read
  have looked := reading_answered rfl read
  obtain ⟨user, isFoundUser⟩ := Option.isSome_iff_exists.mp hasUser
  simp only [Query.execute, AuthQuery.execute, ofUser, isFoundUser, oneRow] at looked
  exact ⟨user.name, looked⟩

/-- The middleware works on the project of the cookie. -/
theorem projectMiddleware_stays
    (member : ∀ project, cookies.projectOf world.db = some project → isAllowed project.id) :
    Ensures (StaysAt isAllowed)
      (fun result after => after.db = world.db ∧ ∀ context, result = .ok context →
        ∃ project, cookies.projectOf world.db = some project ∧ project ∈ world.db.projects.rows ∧
          context = ⟨project.id, project.name⟩)
      (projectMiddleware cookies) world := by
  unfold projectMiddleware
  cases hasCookie : cookies.project with
  | none => exact ⟨rfl, by simp⟩
  | some projectIDHex =>
      simp only
      cases decoded : HexText.decode projectIDHex with
      | none => exact ⟨rfl, by simp⟩
      | some bytes =>
          simp only
          split
          · exact ⟨rfl, by simp⟩
          · next long =>
              refine ensures_reading rfl (by rintro projectID ⟨⟩)
                (fun after same => ⟨same, by simp⟩) fun moment after same => ?_
              simp only [Query.execute, ProjectQuery.execute]
              cases found : world.db.project? (.copy bytes) with
              | none => exact ⟨same, by simp⟩
              | some project =>
                  have isProject : cookies.projectOf world.db = some project := by
                    simp [Cookies.projectOf, hasCookie, decoded, not_not.mp long, found]
                  obtain ⟨stored, isID⟩ := mem_of_project? found
                  refine ensures_keeping rfl ?_ fun isNew last later => ?_
                  · intro projectID named
                    rw [PortalCall.touches, same] at named
                    rw [eq_of_mem_namedProjects stored named]
                    exact member project isProject
                  · cases isNew with
                    | false => exact ⟨later.trans same, by simp⟩
                    | true =>
                        apply And.intro (later.trans same)
                        intro context isContext
                        refine ⟨project, isProject, stored, ?_⟩
                        rw [← Except.ok.inj isContext, isID]

/-- Where nothing fails, the repository of the cookie's project is opened. -/
theorem projectMiddleware_answered {project : Project}
    (isProject : cookies.projectOf world.db = some project)
    {next : Except (List Reply) ProjectContext → PortalProgram Result}
    (ensures : Ensures (StaysAt isAllowed) post (projectMiddleware cookies >>= next) world) :
    isAllowed project.id ∧
      Ensures (StaysAt isAllowed) post (next (.ok ⟨project.id, project.name⟩)) world := by
  obtain ⟨bytes, isDecoded, found⟩ := Option.bind_eq_some_iff.mp isProject
  obtain ⟨projectIDHex, hasCookie, decoded⟩ := Option.bind_eq_some_iff.mp isDecoded
  split at found
  · next long =>
      obtain ⟨stored, isID⟩ := mem_of_project? found
      simp only [projectMiddleware, hasCookie, decoded, long, ne_eq, not_true_eq_false,
        if_false] at ensures
      have opens := reading_answered rfl (ensures_bind.mp ensures)
      simp only [Query.execute, ProjectQuery.execute, found, oneRow] at opens
      constructor
      · exact opens.1 _ (mem_namedProjects stored)
      · have opened := repo_answered opens
        rw [← isID] at opened
        exact opened
  · cases found

/-- Without a project the chain of handlers goes on. -/
theorem projectMiddleware_refused (noProject : cookies.projectOf world.db = none)
    {next : Except (List Reply) ProjectContext → PortalProgram Result}
    (ensures : Ensures (StaysAt isAllowed) post (projectMiddleware cookies >>= next) world) :
    ∃ replies, Ensures (StaysAt isAllowed) post (next (.error replies)) world := by
  unfold projectMiddleware at ensures
  cases hasCookie : cookies.project with
  | none =>
      rw [hasCookie] at ensures
      exact ⟨_, ensures⟩
  | some projectIDHex =>
      simp only [hasCookie] at ensures
      cases decoded : HexText.decode projectIDHex with
      | none =>
          rw [decoded] at ensures
          exact ⟨_, ensures⟩
      | some bytes =>
          simp only [decoded] at ensures
          split at ensures
          · exact ⟨_, ensures⟩
          · next long =>
              simp only [Cookies.projectOf, hasCookie, decoded, Option.bind_some,
                if_pos (not_not.mp long)] at noProject
              have refused := reading_answered rfl (ensures_bind.mp ensures)
              simp only [Query.execute, ProjectQuery.execute, noProject, oneRow] at refused
              exact ⟨_, refused⟩

end Middlewares

end Portal

end Litefunctions
