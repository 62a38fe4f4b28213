import Litefunctions.AddressedHandlers

/-!
# Requests to projects of the user

No middleware asks whether the user has access to the project of the cookie.
A request works on projects of the user only exactly when every project that it
addresses is one of them.
-/

namespace Litefunctions

namespace Portal

open Program

section Touched

variable {isAllowed : Uuid → Prop} {c : Context} {project : ProjectContext} {world : World}
variable {post : List Reply → World → Prop}

/-! ### What a handler touches -/

theorem named_of_stays (settings : Settings) (cookies : Cookies) (route : ProjectRoute)
    (stays : Ensures (StaysAt isAllowed) post (route.handle settings cookies c) world) :
    ∀ projectID ∈ route.named world.db, isAllowed projectID := by
  have ofRow : ∀ request : RowRoute, request.route = route →
      ∀ projectID ∈ route.named world.db, isAllowed projectID := by
    rintro request rfl
    rw [request.handle_route] at stays
    exact request.named_of_ensures (fun _ _ => id) stays
  cases route with
  | getFunction fnID => exact ofRow (.getFunction fnID) rfl
  | updateFunction fnID body => exact ofRow (.updateFunction fnID body) rfl
  | deleteFunction fnID => exact ofRow (.deleteFunction fnID) rfl
  | getEndpoint epID => exact ofRow (.getEndpoint epID) rfl
  | updateEndpoint epID body => exact ofRow (.updateEndpoint epID body) rfl
  | _ => simp [ProjectRoute.named]

/-- Where nothing fails, the endpoints of the project are joined with
functions. -/
theorem joined_of_stays (settings : Settings) (cookies : Cookies) {route : ProjectRoute}
    (isProject : c.project = some project) (joins : route.joins = true)
    (stays : Ensures (StaysAt isAllowed) post (route.handle settings cookies c) world) :
    ∀ projectID ∈ world.db.joinedProjects project.projectUUID, isAllowed projectID := by
  cases route with
  | functionsPage =>
      rw [ProjectRoute.handle, UIHandlers.functions, mustGetProject_of_isProject isProject] at stays
      exact (List.forall_mem_cons.mp (ensures_bind.mp stays).1).2
  | endpointsPage =>
      rw [ProjectRoute.handle, UIHandlers.endpoints, mustGetProject_of_isProject isProject] at stays
      exact (List.forall_mem_cons.mp (ensures_bind.mp stays).1).2
  | syncProject =>
      rw [ProjectRoute.handle, ProjectHandlers.syncProject,
        mustGetProject_of_isProject isProject] at stays
      have opened := repo_answered (ensures_bind.mp stays)
      have listed := reading_answered rfl opened
      exact (List.forall_mem_cons.mp listed.1).2
  | listEndpoints search limit offset =>
      rw [ProjectRoute.handle, EndpointHandlers.listEndpoints,
        mustGetProject_of_isProject isProject] at stays
      exact (List.forall_mem_cons.mp stays.1).2
  | listFunctions search limit offset =>
      rw [ProjectRoute.handle, FunctionHandlers.listFunctions,
        mustGetProject_of_isProject isProject] at stays
      have accepts : acceptsPage limit offset = true := joins
      have nonneg : ¬ (int32 (atoi (limit.getD "100")).1 < 0 ∨
          int32 (atoi (offset.getD "0")).1 < 0) := by
        obtain ⟨limitNonneg, offsetNonneg⟩ := of_decide_eq_true accepts
        omega
      have listed := reading_answered rfl stays
      simp only [Query.execute, FunctionQuery.execute, page, if_neg nonneg] at listed
      exact (List.forall_mem_cons.mp (ensures_bind.mp listed).1).2
  | _ => cases joins

end Touched

/-! ### Requests -/

section Requests

variable {userID : Bytes} {world : World} {cookies : Cookies}

theorem mem_addressed_iff {db : Database} {route : ProjectRoute} {projectID : Uuid} :
    projectID ∈ addressed db cookies route ↔
      (∃ project, cookies.projectOf db = some project ∧
        (projectID = project.id ∨
          (route.joins = true ∧ projectID ∈ db.joinedProjects project.id))) ∨
      projectID ∈ route.named db := by
  cases isProject : cookies.projectOf db with
  | none => simp [addressed, isProject]
  | some project => cases joins : route.joins <;> simp [addressed, isProject, joins, or_assoc]

/-- What the middlewares have set is what the request addresses. -/
theorem allowsRoute_of_addressed {isAllowed : Uuid → Prop} {route : ProjectRoute} {c : Context}
    {after : World} (allowed : ∀ projectID ∈ addressed world.db cookies route, isAllowed projectID)
    (same : after.db = world.db)
    (ofUser : ∀ row ∈ world.db.access.rows, row.userID = c.userID → isAllowed row.projectID)
    (ofCookie : ∀ context, c.project = some context → ∃ project,
      cookies.projectOf world.db = some project ∧ project ∈ world.db.projects.rows ∧
        context = ⟨project.id, project.name⟩) :
    AllowsRoute isAllowed c route after := by
  rw [← same] at allowed ofUser ofCookie
  constructor
  · intro context isContext
    obtain ⟨project, isProject, stored, rfl⟩ := ofCookie context isContext
    have own : isAllowed project.id :=
      allowed _ (mem_addressed_iff.mpr (.inl ⟨project, isProject, .inl rfl⟩))
    refine ⟨own, fun projectID named => ?_⟩
    rw [eq_of_mem_namedProjects stored named]
    exact own
  · intro context isContext joins projectID member
    obtain ⟨project, isProject, -, rfl⟩ := ofCookie context isContext
    exact allowed _ (mem_addressed_iff.mpr (.inl ⟨project, isProject, .inr ⟨joins, member⟩⟩))
  · intro projectID named
    exact allowed _ (mem_addressed_iff.mpr (.inr named))
  · exact ofUser

theorem protect_stays (settings : Settings) (belongs : cookies.BelongsTo userID world)
    (route : ProjectRoute)
    (members : ∀ projectID ∈ addressed world.db cookies route,
      HasAccess userID world.db projectID) :
    Stays (HasAccess userID world.db)
      (protect cookies route.path fun c => route.handle settings cookies c) world := by
  have ofUser : ∀ row ∈ world.db.access.rows, row.userID = userID →
      HasAccess userID world.db row.projectID :=
    fun row member isUser => ⟨row, member, isUser, rfl⟩
  unfold protect
  apply ensures_bind.mpr
  apply (authMiddleware_stays belongs _).imp fun _ _ => id
  rintro (replies | c) admittedAt ⟨sameAdmitted, ofSession⟩
  · trivial
  obtain ⟨isUser, noProject⟩ := ofSession c rfl
  apply ensures_bind.mpr
  have ofCookie : ∀ project, cookies.projectOf admittedAt.db = some project →
      HasAccess userID world.db project.id := by
    intro project isProject
    rw [sameAdmitted] at isProject
    exact members _ (mem_addressed_iff.mpr (.inl ⟨project, isProject, .inl rfl⟩))
  apply (projectMiddleware_stays ofCookie).imp fun _ _ => id
  rintro (replies | context) after ⟨sameAfter, isContext⟩
  · have allows : AllowsRoute (HasAccess userID world.db) c route after := by
      apply allowsRoute_of_addressed members (sameAfter.trans sameAdmitted)
      · rw [isUser]
        exact ofUser
      · intro context isContext
        rw [noProject] at isContext
        cases isContext
    apply ensures_bind.mpr
    apply (handle_stays settings cookies route allows).imp fun _ _ => id
    intro _ _ _
    trivial
  · apply handle_stays settings cookies route
    apply allowsRoute_of_addressed members (sameAfter.trans sameAdmitted)
    · rw [isUser]
      exact ofUser
    · intro other sameContext
      obtain rfl := Option.some.inj sameContext
      rw [← sameAdmitted]
      exact isContext _ rfl

/-- Every project that a request addresses is touched where nothing fails. -/
theorem allowed_of_protect (settings : Settings) (belongs : cookies.BelongsTo userID world)
    (route : ProjectRoute) {isAllowed : Uuid → Prop} {post : List Reply → World → Prop}
    (stays : Ensures (StaysAt isAllowed) post
      (protect cookies route.path fun c => route.handle settings cookies c) world) :
    ∀ projectID ∈ addressed world.db cookies route, isAllowed projectID := by
  obtain ⟨userName, admitted⟩ := authMiddleware_answered belongs stays
  intro projectID member
  cases isProject : cookies.projectOf world.db with
  | none =>
      obtain ⟨replies, handled⟩ := projectMiddleware_refused isProject admitted
      have named := named_of_stays settings cookies route (ensures_bind.mp handled)
      rcases mem_addressed_iff.mp member with ⟨project, found, -⟩ | isNamed
      · rw [isProject] at found
        cases found
      · exact named projectID isNamed
  | some project =>
      obtain ⟨own, handled⟩ := projectMiddleware_answered isProject admitted
      rcases mem_addressed_iff.mp member with ⟨other, found, isOwn | ⟨joins, joined⟩⟩ | isNamed
      · obtain rfl := Option.some.inj (isProject.symm.trans found)
        exact isOwn ▸ own
      · obtain rfl := Option.some.inj (isProject.symm.trans found)
        exact joined_of_stays settings cookies rfl joins handled projectID joined
      · exact named_of_stays settings cookies route handled projectID isNamed

/-- A request behind both middlewares reads and changes projects of the user
only exactly when it addresses no other project. -/
theorem protect_stays_iff (settings : Settings) (belongs : cookies.BelongsTo userID world)
    (route : ProjectRoute) :
    Stays (HasAccess userID world.db)
        (protect cookies route.path fun c => route.handle settings cookies c) world ↔
      ∀ projectID ∈ addressed world.db cookies route, HasAccess userID world.db projectID :=
  ⟨allowed_of_protect settings belongs route, protect_stays settings belongs route⟩

end Requests

/-- A project, a user with a session, and the given access. -/
def sessionWorld (access : Table ProjectAccess ProjectAccess.conflicts) : World where
  db :=
    { Database.empty with
      users := .single ⟨[97], "a", "a"⟩
      projects := .single ⟨.copy [1], "shop", [98], 0⟩
      access := access
      userSessions := .single ⟨"s", [97], 60⟩ }
  saved := none
  cluster := { functions := .empty, deployments := .empty, services := .empty, clock := 0 }
  clock := 0

def shopCookies : Cookies where
  session := some "s"
  project := some "01000000000000000000000000000000"

theorem shopCookies_belong (access : Table ProjectAccess ProjectAccess.conflicts) :
    shopCookies.BelongsTo [97] (sessionWorld access) :=
  ⟨"s", rfl, ⟨"s", [97], 60⟩, List.mem_singleton_self _, rfl,
    show (0 : Int) < 60 by decide, rfl, rfl⟩

theorem viewer_stays :
    Stays (HasAccess [97] (sessionWorld (.single ⟨[97], .copy [1], .viewer⟩)).db)
      (protect shopCookies "/api/projects/access/" fun c =>
        ProjectRoute.listProjectAccess.handle FunctionHandlers.shopSettings shopCookies c)
      (sessionWorld (.single ⟨[97], .copy [1], .viewer⟩)) := by
  apply (protect_stays_iff FunctionHandlers.shopSettings (shopCookies_belong _) .listProjectAccess).mpr
  intro projectID member
  have only : addressed (sessionWorld (.single ⟨[97], .copy [1], .viewer⟩)).db shopCookies
      .listProjectAccess = [.copy [1]] := by decide
  rw [only] at member
  rw [List.mem_singleton.mp member]
  exact ⟨_, List.mem_singleton_self _, rfl, rfl⟩

/-- Without access to the project of the cookie a user lists its members. -/
theorem stranger_listsMembers :
    ¬ ∀ (settings : Settings) (cookies : Cookies) (userID : Bytes) (world : World)
      (route : ProjectRoute), cookies.BelongsTo userID world →
        Stays (HasAccess userID world.db)
          (protect cookies route.path fun c => route.handle settings cookies c) world := by
  intro always
  have stays := always FunctionHandlers.shopSettings shopCookies [97] (sessionWorld .empty)
    .listProjectAccess (shopCookies_belong _)
  have member : Uuid.copy [1] ∈ addressed (sessionWorld .empty).db shopCookies .listProjectAccess := by
    decide
  obtain ⟨row, isRow, -⟩ := allowed_of_protect _ (shopCookies_belong _) _ stays _ member
  cases isRow

/-! ### Projects of others -/

section Others

variable {projectID : Uuid} {rows : ProjectRows} {world : World}

/-- The rows of the project, also where a transaction began. -/
structure HoldsRows (projectID : Uuid) (rows : ProjectRows) (world : World) : Prop where
  now : world.db.rowsOf projectID = rows
  saved : ∀ saved ∈ world.saved, saved.rowsOf projectID = rows

theorem HoldsRows.getD (holds : HoldsRows projectID rows world) :
    (world.saved.getD world.db).rowsOf projectID = rows := by
  cases isSaved : world.saved with
  | none => exact holds.now
  | some saved => exact holds.saved saved isSaved

theorem HoldsRows.execute (holds : HoldsRows projectID rows world) {request : PortalCall}
    (untouched : projectID ∉ request.touches world.db) (circumstance : PortalCall.Circumstance) :
    HoldsRows projectID rows (PortalCall.execute request circumstance world).2 := by
  cases request with
  | query statement =>
      have kept : ∀ moment, (statement.execute moment world.db).2.rowsOf projectID = rows :=
        fun moment => (Query.rowsOf_execute statement untouched).trans holds.now
      simp only [PortalCall.execute]
      cases circumstance.fault with
      | refused => exact ⟨holds.now, holds.saved⟩
      | none | lost => exact ⟨kept _, holds.saved⟩
  | begin =>
      simp only [PortalCall.execute]
      cases circumstance.fault with
      | none =>
          refine ⟨holds.now, fun saved isSaved => ?_⟩
          rw [← Option.some.inj isSaved]
          exact holds.now
      | refused | lost => exact ⟨holds.now, holds.saved⟩
  | commit =>
      simp only [PortalCall.execute]
      cases circumstance.fault with
      | none | lost => exact ⟨holds.now, by simp⟩
      | refused => exact ⟨holds.getD, by simp⟩
  | rollback => exact ⟨holds.getD, by rintro saved ⟨⟩⟩
  | createFunctionCRD req =>
      simp only [PortalCall.execute]
      cases circumstance.fault <;> exact ⟨holds.now, holds.saved⟩
  | _ => exact ⟨holds.now, holds.saved⟩

/-- A program that stays on allowed projects leaves the rows of all others. -/
theorem holdsRows_of_stays {Result : Type} {program : PortalProgram Result}
    {isAllowed : Uuid → Prop} {post : Result → World → Prop} (foreign : ¬ isAllowed projectID)
    (stays : Ensures (StaysAt isAllowed) post program world)
    (holds : HoldsRows projectID rows world) :
    Ensures (fun _ _ => True) (fun _ after => HoldsRows projectID rows after) program world := by
  induction program generalizing world with
  | done result => exact holds
  | call request next ih =>
      refine ⟨trivial, fun circumstance => ih _ (stays.2 circumstance) ?_⟩
      exact holds.execute (fun touched => foreign (stays.1 projectID touched)) circumstance

/-- A request that addresses projects of its user only leaves the rows of every
other project. -/
theorem protect_holdsRows (settings : Settings) {cookies : Cookies} {userID : Bytes}
    (belongs : cookies.BelongsTo userID world) (route : ProjectRoute)
    (members : ∀ projectID ∈ addressed world.db cookies route, HasAccess userID world.db projectID)
    (foreign : ¬ HasAccess userID world.db projectID) (noTransaction : world.saved = none) :
    Ensures (fun _ _ => True)
      (fun _ after => after.db.rowsOf projectID = world.db.rowsOf projectID)
      (protect cookies route.path fun c => route.handle settings cookies c) world := by
  have holds : HoldsRows projectID (world.db.rowsOf projectID) world :=
    ⟨rfl, by simp [noTransaction]⟩
  exact (holdsRows_of_stays foreign (protect_stays settings belongs route members) holds).imp
    (fun _ _ => id) fun _ _ => HoldsRows.now

end Others

end Portal

end Litefunctions
