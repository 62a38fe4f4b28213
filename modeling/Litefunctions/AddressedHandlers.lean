import Litefunctions.AddressedProjects
import Litefunctions.FunctionMirrors
import Litefunctions.SyncedFunctions

/-!
# Handlers stay on the projects that a request addresses

Each handler behind both middlewares makes a first call that depends on its
path, or on the endpoints of the project, and then works on the project of the
context.  The rows that it adds are rows of that project.
-/

namespace Litefunctions

namespace Portal

open Program

section Handlers

variable {isAllowed : Uuid → Prop} {c : Context} {project : ProjectContext} {world : World}
variable {Result : Type}

/-- The projects that a route addresses are allowed, and those of the user. -/
structure AllowsRoute (isAllowed : Uuid → Prop) (c : Context) (route : ProjectRoute)
    (world : World) : Prop where
  admitted : IsAdmitted isAllowed c world
  joined : ∀ project, c.project = some project → route.joins = true →
    ∀ projectID ∈ world.db.joinedProjects project.projectUUID, isAllowed projectID
  named : ∀ projectID ∈ route.named world.db, isAllowed projectID
  user : ∀ row ∈ world.db.access.rows, row.userID = c.userID → isAllowed row.projectID

/-! ### Rules -/

theorem stays_mustGetProject {handler : ProjectContext → Replies}
    (stays : ∀ project, c.project = some project → Stays isAllowed (handler project) world) :
    Stays isAllowed (c.mustGetProject handler) world := by
  unfold Context.mustGetProject
  cases isProject : c.project with
  | none => trivial
  | some project => exact stays project isProject

/-- A handler of own calls. -/
theorem stays_of_makes {program : Replies} (makes : program.Makes (IsOwn isAllowed c))
    (admitted : IsAdmitted isAllowed c world) : Stays isAllowed program world :=
  (stays_of_own makes admitted).imp (fun _ _ => id) fun _ _ _ => trivial

/-- A handler whose calls are own ones after its first part. -/
theorem stays_bind {program : PortalProgram Result} {continuation : Result → Replies}
    (first : Ensures (StaysAt isAllowed) (fun _ after => IsAdmitted isAllowed c after) program world)
    (rest : ∀ result, (continuation result).Makes (IsOwn isAllowed c)) :
    Stays isAllowed (program >>= continuation) world := by
  apply ensures_bind.mpr
  apply first.imp (fun _ _ => id)
  intro result after admitted
  exact stays_of_makes (rest result) admitted

theorem isOwn_auth (statement : AuthQuery) : IsOwn isAllowed c (.query (.auth statement)) :=
  isOwn_untouching rfl fun _ => rfl

/-! ### Pages and lists -/

/-- Listing the endpoints joins them with functions. -/
theorem staysAt_joining (isProject : c.project = some project)
    (admitted : IsAdmitted isAllowed c world)
    (joined : ∀ projectID ∈ world.db.joinedProjects project.projectUUID, isAllowed projectID) :
    ∀ projectID ∈ project.projectUUID :: world.db.joinedProjects project.projectUUID,
      isAllowed projectID :=
  List.forall_mem_cons.mpr ⟨(admitted project isProject).uuid, joined⟩

theorem listEndpointsForProject_stays (isProject : c.project = some project)
    (admitted : IsAdmitted isAllowed c world)
    (joined : ∀ projectID ∈ world.db.joinedProjects project.projectUUID, isAllowed projectID) :
    Ensures (StaysAt isAllowed) (fun _ after => IsAdmitted isAllowed c after)
      (FunctionHandlers.listEndpointsForProject project.projectUUID) world := by
  apply stays_first (.query (.endpoint (.listEndpointsForProject project.projectUUID))) rfl
  · exact staysAt_joining isProject admitted joined
  · exact admitted
  · intro listed
    cases listed <;> trivial

theorem userNameOr_isOwn (userID : Bytes) (otherwise : String) :
    (UIHandlers.userNameOr userID otherwise).Makes (IsOwn isAllowed c) := by
  apply And.intro (isOwn_auth _)
  intro found
  cases found <;> trivial

theorem functionsPage_stays (cookies : Cookies)
    (allows : AllowsRoute isAllowed c .functionsPage world) :
    Stays isAllowed (UIHandlers.functions cookies c) world := by
  apply stays_mustGetProject
  intro project isProject
  apply stays_bind (listEndpointsForProject_stays isProject allows.admitted
    (allows.joined project isProject rfl))
  intro eps
  apply And.intro (isOwn_listing isProject rfl fun _ => rfl)
  intro listed
  cases listed with
  | error err => exact (userNameOr_isOwn _ _).bind fun _ => trivial
  | ok rows => exact (userNameOr_isOwn _ _).bind fun _ => trivial

theorem endpointsPage_stays (settings : Settings)
    (allows : AllowsRoute isAllowed c .endpointsPage world) :
    Stays isAllowed (UIHandlers.endpoints settings c) world := by
  apply stays_mustGetProject
  intro project isProject
  apply stays_bind (listEndpointsForProject_stays isProject allows.admitted
    (allows.joined project isProject rfl))
  intro eps
  trivial

theorem listEndpoints_stays (search limit offset : Option String)
    (allows : AllowsRoute isAllowed c (.listEndpoints search limit offset) world) :
    Stays isAllowed (EndpointHandlers.listEndpoints c search limit offset) world := by
  apply stays_mustGetProject
  intro project isProject
  refine ⟨?_, fun circumstance => ?_⟩
  · exact staysAt_joining isProject allows.admitted (allows.joined project isProject rfl)
  · generalize (PortalCall.execute _ circumstance world).1 = listed
    cases listed <;> trivial

/-- The endpoints are listed only where the functions were. -/
theorem listFunctions_stays (search limit offset : Option String)
    (allows : AllowsRoute isAllowed c (.listFunctions search limit offset) world) :
    Stays isAllowed (FunctionHandlers.listFunctions c search limit offset) world := by
  apply stays_mustGetProject
  intro project isProject
  apply ensures_reading rfl
  · intro projectID touched
    rw [List.mem_singleton.mp touched]
    exact (allows.admitted project isProject).uuid
  · intro after _
    trivial
  · intro moment after same
    simp only [Query.execute, FunctionQuery.execute, page]
    split
    · trivial
    · next nonneg =>
        have accepts : acceptsPage limit offset = true := by
          simp only [not_or, Int.not_lt] at nonneg
          exact decide_eq_true nonneg
        have admitted := allows.admitted.congr (congrArg Database.projects same)
        apply stays_bind (listEndpointsForProject_stays isProject admitted _)
        · intro eps
          trivial
        · rw [same]
          exact allows.joined project isProject accepts

/-! ### Members and invites -/

theorem listProjects_stays (allows : AllowsRoute isAllowed c .listProjects world) :
    Stays isAllowed (ProjectHandlers.listProjects c) world := by
  refine ⟨?_, fun circumstance => ?_⟩
  · intro projectID touched
    obtain ⟨row, member, rfl⟩ := List.mem_map.mp touched
    obtain ⟨stored, ofUser⟩ := List.mem_filter.mp member
    exact allows.user row stored (of_decide_eq_true ofUser)
  · generalize (PortalCall.execute _ circumstance world).1 = listed
    cases listed <;> trivial

theorem getProject_isOwn (id : String) :
    (ProjectHandlers.getProject c id).Makes (IsOwn isAllowed c) := by
  refine mustGetProject_makes c fun project _ => ⟨isOwn_untouching rfl fun _ => rfl, fun found => ?_⟩
  cases found <;> trivial

theorem listProjectAccess_isOwn :
    (ProjectHandlers.listProjectAccess c).Makes (IsOwn isAllowed c) := by
  refine mustGetProject_makes c fun project isProject =>
    ⟨isOwn_listing isProject rfl fun _ => rfl, fun listed => ?_⟩
  cases listed <;> trivial

theorem updateProjectAccess_isOwn (id : String) (body : Option String) :
    (ProjectHandlers.updateProjectAccess c id body).Makes (IsOwn isAllowed c) := by
  apply mustGetProject_makes
  intro project isProject
  cases body with
  | none => trivial
  | some role =>
      apply And.intro (isOwn_listing isProject rfl fun _ => rfl)
      intro updated
      cases updated <;> trivial

theorem revokeProjectAccess_isOwn (id : String) :
    (ProjectHandlers.revokeProjectAccess c id).Makes (IsOwn isAllowed c) := by
  refine mustGetProject_makes c fun project isProject =>
    ⟨isOwn_listing isProject rfl fun _ => rfl, fun revoked => ?_⟩
  cases revoked <;> trivial

/-- Allowed calls in every world, also in a transaction. -/
theorem stays_of_always {program : PortalProgram Result}
    (makes : program.Makes fun request => ∀ before, StaysAt isAllowed request before) :
    Stays isAllowed program world :=
  ((makes.along []).ensures_calls).imp (fun _ before stays => stays before) fun _ _ => id

theorem createProjectInvite_stays (allows : AllowsRoute isAllowed c .createProjectInvite world) :
    Stays isAllowed (ProjectHandlers.createProjectInvite c) world := by
  apply stays_mustGetProject
  intro project isProject
  have uuid := (allows.admitted project isProject).uuid
  have untouched : ∀ {request : PortalCall}, (∀ db, request.touches db = []) →
      ∀ before, StaysAt isAllowed request before := by
    intro request none before projectID touched
    rw [none] at touched
    cases touched
  have refuses : ∀ replies : List Reply,
      (call PortalCall.rollback fun _ => done replies : Replies).Makes
        fun request => ∀ before, StaysAt isAllowed request before :=
    fun replies => ⟨untouched fun _ => rfl, fun _ => trivial⟩
  apply stays_of_always
  apply And.intro (untouched fun _ => rfl)
  intro begun
  cases begun with
  | false => trivial
  | true =>
      refine ⟨fun before projectID touched => ?_, fun found => ?_⟩
      · obtain ⟨row, member, rfl⟩ := List.mem_map.mp touched
        rw [(of_decide_eq_true (List.mem_filter.mp member).2).2]
        exact uuid
      · cases found with
        | error err => exact refuses _
        | ok role =>
            show Makes _ ((if role ≠ "owner" then _ else _ : PortalProgram _) >>= _)
            split
            · exact refuses _
            · refine ⟨untouched fun _ => rfl, fun draws => ⟨untouched fun _ => rfl, fun issued =>
                ⟨fun before projectID touched => ?_, fun created => ?_⟩⟩⟩
              · rw [List.mem_singleton.mp touched]
                exact uuid
              · cases created with
                | error err => exact refuses _
                | ok invite =>
                    apply And.intro (untouched fun _ => rfl)
                    intro committed
                    cases committed <;> trivial

/-! ### The status of actions -/

theorem send_isOwn (isProject : c.project = some project) (opts : ActionsProgressOptions) :
    (ActionHandlers.send project.projectName opts).Makes (IsOwn isAllowed c) := by
  apply And.intro (isOwn_vcs isProject _)
  intro progress
  cases progress <;> trivial

theorem sendUntilGone_isOwn (isProject : c.project = some project) (opts : ActionsProgressOptions)
    (rounds : Nat) :
    (ActionHandlers.sendUntilGone project.projectName opts rounds).Makes (IsOwn isAllowed c) := by
  induction rounds with
  | zero => trivial
  | succ rounds ih =>
      apply And.intro (isOwn_untouching rfl fun _ => rfl)
      intro isGone
      cases isGone with
      | true => trivial
      | false => exact (send_isOwn isProject opts).bind fun sent => ih.bind fun _ => trivial

theorem status_isOwn (params : ActionHandlers.StatusParams) (rounds : Nat) :
    (ActionHandlers.status c params rounds).Makes (IsOwn isAllowed c) := by
  apply And.intro (isOwn_untouching rfl fun _ => rfl)
  intro client
  cases client with
  | error text => trivial
  | ok _ =>
      apply mustGetProject_makes
      intro project isProject
      cases params.limit? with
      | none => trivial
      | some limit =>
          exact (send_isOwn isProject _).bind fun sent =>
            (sendUntilGone_isOwn isProject _ rounds).bind fun _ => trivial

/-! ### Rows that the path names -/

theorem getFunction_stays (fnID : String)
    (allows : AllowsRoute isAllowed c (.getFunction fnID) world) :
    Stays isAllowed (FunctionHandlers.getFunction c fnID) world := by
  have named := allows.named
  unfold FunctionHandlers.getFunction
  cases decoded : HexText.decode fnID with
  | none => trivial
  | some bytes =>
      simp only [ProjectRoute.named, decoded, Option.toList_some, List.flatMap_singleton] at named
      refine (stays_first (.query (.function (.getFunctionByID (some (.copy bytes))))) rfl ?_
        allows.admitted fun found => ?_).imp (fun _ _ => id) fun _ _ _ => trivial
      · simpa [StaysAt, PortalCall.touches, Query.touches, FunctionQuery.touches] using named
      · cases found with
        | error err => trivial
        | ok f =>
            refine mustGetProject_makes c fun project isProject =>
              ⟨isOwn_repo isProject _, fun data => ?_⟩
            rcases data with (_ | _) | _ <;> trivial

theorem updateFunction_stays (fnID : String) (body : FunctionHandlers.UpdateBody)
    (allows : AllowsRoute isAllowed c (.updateFunction fnID body) world) :
    Stays isAllowed (FunctionHandlers.updateFunction c fnID body) world := by
  have named := allows.named
  unfold FunctionHandlers.updateFunction
  cases decoded : HexText.decode fnID with
  | none => trivial
  | some bytes =>
      simp only [ProjectRoute.named, decoded, Option.toList_some, List.flatMap_singleton] at named
      dsimp only
      split
      · trivial
      · next long =>
          rw [if_pos (not_not.mp long)] at named
          refine (stays_first (.query (.function (.getFunctionByID (some (.copy bytes))))) rfl ?_
            allows.admitted fun found => ?_).imp (fun _ _ => id) fun _ _ _ => trivial
          · simpa [StaysAt, PortalCall.touches, Query.touches, FunctionQuery.touches] using named
          · cases found with
            | error err => trivial
            | ok f =>
                apply mustGetProject_makes
                intro project isProject
                rcases body with (_ | content) | (_ | req)
                · trivial
                · apply (FunctionHandlers.saveFile_makes (isOwn_repo isProject) _ _).bind
                  intro saved
                  cases saved <;> trivial
                · trivial
                · exact FunctionHandlers.updateFromJson_makes (isOwn_repo isProject)
                    (fun _ => isOwn_untouching rfl fun _ => rfl)
                    (fun _ => isOwn_untouching rfl fun _ => rfl) _ _

theorem restoreFunction_isOwn {f : FunctionRow} (ofAllowed : isAllowed f.projectID)
    (text : String) : (FunctionHandlers.restoreFunction f text).Makes (IsOwn isAllowed c) := by
  refine ⟨⟨rfl, fun before _ projectID touched => ?_⟩, fun _ => trivial⟩
  rw [List.mem_singleton.mp touched]
  exact ofAllowed

theorem deleteFunction_stays (fnID : String)
    (allows : AllowsRoute isAllowed c (.deleteFunction fnID) world) :
    Stays isAllowed (FunctionHandlers.deleteFunction c fnID) world := by
  have named := allows.named
  unfold FunctionHandlers.deleteFunction
  cases decoded : HexText.decode fnID with
  | none => trivial
  | some bytes =>
      simp only [ProjectRoute.named, decoded, Option.toList_some, List.flatMap_singleton] at named
      cases found : world.db.function? (.copy bytes) with
      | none =>
          refine ensures_reading rfl ?_ (fun after _ => trivial) fun moment after _ => ?_
          · simp [StaysAt, PortalCall.touches, Query.touches, FunctionQuery.touches,
              functionProject_eq_nil found]
          · simp only [Query.execute, FunctionQuery.execute, Option.bind_some, found, oneRow]
            trivial
      | some f =>
          rw [found, Option.isSome_some, if_pos rfl] at named
          have ofAllowed : isAllowed f.projectID :=
            named _ (List.mem_append_left _ (functionProject_of_function? found))
          refine ensures_reading rfl ?_ (fun after _ => trivial) fun moment after same => ?_
          · intro projectID touched
            simp only [PortalCall.touches, Query.touches, FunctionQuery.touches,
              Option.toList_some, List.flatMap_singleton] at touched
            exact named projectID (List.mem_append_left _ touched)
          · simp only [Query.execute, FunctionQuery.execute, Option.bind_some, found, oneRow]
            refine (stays_first (.query (.function (.deleteFunction (some (.copy bytes))))) rfl ?_
              (allows.admitted.congr (congrArg Database.projects same)) fun deleted => ?_).imp
                (fun _ _ => id) fun _ _ _ => trivial
            · simpa [StaysAt, PortalCall.touches, Query.touches, FunctionQuery.touches, same]
                using named
            · cases deleted with
              | error err => trivial
              | ok _ =>
                  refine mustGetProject_makes c fun project isProject =>
                    ⟨isOwn_repo isProject _, fun isRemoved => ?_⟩
                  cases isRemoved with
                  | false => exact restoreFunction_isOwn ofAllowed _
                  | true =>
                      apply And.intro (isOwn_repo isProject _)
                      intro committed
                      cases committed with
                      | error err => exact restoreFunction_isOwn ofAllowed _
                      | ok _ =>
                          apply And.intro (isOwn_repo isProject _)
                          intro isPushed
                          cases isPushed with
                          | false => exact restoreFunction_isOwn ofAllowed _
                          | true => trivial

theorem getEndpoint_stays (epID : String)
    (allows : AllowsRoute isAllowed c (.getEndpoint epID) world) :
    Stays isAllowed (EndpointHandlers.getEndpoint epID) world := by
  have named := allows.named
  unfold EndpointHandlers.getEndpoint
  cases decoded : HexText.decode epID with
  | none => trivial
  | some bytes =>
      simp only [ProjectRoute.named, decoded, Option.toList_some, List.flatMap_singleton] at named
      apply And.intro named
      intro circumstance
      generalize (PortalCall.execute _ circumstance world).1 = found
      cases found <;> trivial

theorem updateEndpoint_stays (epID : String) (body : Option EndpointHandlers.UpdateEndpointRequest)
    (allows : AllowsRoute isAllowed c (.updateEndpoint epID body) world) :
    Stays isAllowed (EndpointHandlers.updateEndpoint epID body) world := by
  have named := allows.named
  unfold EndpointHandlers.updateEndpoint
  cases decoded : HexText.decode epID with
  | none => trivial
  | some bytes =>
      cases body with
      | none => trivial
      | some req =>
          simp only [ProjectRoute.named, decoded, Option.toList_some,
            List.flatMap_singleton] at named
          apply And.intro named
          intro circumstance
          generalize (PortalCall.execute _ circumstance world).1 = updated
          cases updated <;> trivial

/-! ### New rows -/

section NewRows

variable {moment : Moment} {db : Database} {projectUUID projectID fnID : Uuid}
variable {name language path : String} {isAsync : Bool} {createdBy : Bytes}

/-- A statement that adds a function names no other project by an id. -/
theorem functionProject_of_createFunction
    (member : projectID ∈ (FunctionQuery.execute moment
      (.createFunction projectUUID name language path isAsync createdBy) db).2.functionProject fnID) :
    projectID ∈ db.functionProject fnID ∨ projectID = projectUUID := by
  simp only [FunctionQuery.execute] at member
  split at member
  · exact .inl member
  · split at member
    · exact .inl member
    · next functions inserted =>
        obtain ⟨row, isRow, rfl⟩ := List.mem_map.mp member
        obtain ⟨stored, sameID⟩ := List.mem_filter.mp isRow
        rcases (Table.mem_insert inserted).mp stored with old | rfl
        · exact .inl (List.mem_map.mpr ⟨row, List.mem_filter.mpr ⟨old, sameID⟩, rfl⟩)
        · exact .inr rfl

/-- The id of a new function is one of its project. -/
theorem functionProject_of_created {fn : FunctionRow}
    (created : (FunctionQuery.execute moment
      (.createFunction projectUUID name language path isAsync createdBy) db).1 = .ok fn)
    (member : projectID ∈ (FunctionQuery.execute moment
      (.createFunction projectUUID name language path isAsync createdBy) db).2.functionProject
        fn.id) : projectID = projectUUID := by
  simp only [FunctionQuery.execute] at created member
  split at created
  · cases created
  · next hasOwner =>
      rw [if_neg hasOwner] at member
      split at created
      · cases created
      · next functions inserted =>
          obtain rfl := Except.ok.inj created
          rw [inserted] at member
          obtain ⟨row, isRow, rfl⟩ := List.mem_map.mp member
          obtain ⟨stored, sameID⟩ := List.mem_filter.mp isRow
          have isNew := (Table.mem_insert inserted).mpr (.inr rfl)
          have same := Table.eq_of_conflicts (fun first second => by
            simp only [FunctionRow.conflicts, eq_comm]) stored isNew (by
              simp [FunctionRow.conflicts, of_decide_eq_true sameID])
          rw [same]

end NewRows

/-- The functions with these ids belong to allowed projects. -/
structure KnowsRows (isAllowed : Uuid → Prop) (c : Context) (ids : List Uuid) (world : World) :
    Prop where
  admitted : IsAdmitted isAllowed c world
  known : ∀ fnID ∈ ids, ∀ projectID ∈ world.db.functionProject fnID, isAllowed projectID

section Sync

variable {ids : List Uuid} {post : Result → World → Prop}

theorem KnowsRows.congr {after : World} (knows : KnowsRows isAllowed c ids world)
    (sameProjects : after.db.projects = world.db.projects)
    (sameFunctions : after.db.functions = world.db.functions) :
    KnowsRows isAllowed c ids after := by
  refine ⟨knows.admitted.congr sameProjects, fun fnID member projectID touched => ?_⟩
  rw [Database.functionProject, sameFunctions] at touched
  exact knows.known fnID member projectID touched

theorem createFunction_call (isProject : c.project = some project)
    {name language path : String} {isAsync : Bool} {createdBy : Bytes}
    {next : Except DbError FunctionRow → PortalProgram Result}
    (knows : KnowsRows isAllowed c ids world)
    (failed : ∀ err after, KnowsRows isAllowed c ids after →
      Ensures (StaysAt isAllowed) post (next (.error err)) after)
    (created : ∀ fn after, KnowsRows isAllowed c (fn.id :: ids) after →
      Ensures (StaysAt isAllowed) post (next (.ok fn)) after) :
    Ensures (StaysAt isAllowed) post (call (.query (.function (.createFunction
      project.projectUUID name language path isAsync createdBy))) next) world := by
  have uuid := (knows.admitted project isProject).uuid
  have later : ∀ moment (after : World), after.db = (FunctionQuery.execute moment (.createFunction
      project.projectUUID name language path isAsync createdBy) world.db).2 →
      KnowsRows isAllowed c ids after := by
    intro moment after afterEq
    have sameProjects : after.db.projects = world.db.projects := by
      rw [afterEq]
      show ((Query.function (.createFunction project.projectUUID name language path isAsync
        createdBy)).execute moment world.db).2.projects = world.db.projects
      exact Query.projects_execute rfl moment world.db
    refine ⟨knows.admitted.congr sameProjects, fun fnID member projectID touched => ?_⟩
    rw [afterEq] at touched
    rcases functionProject_of_createFunction touched with old | rfl
    · exact knows.known fnID member projectID old
    · exact uuid
  apply ensures_query
  · intro projectID touched
    rw [List.mem_singleton.mp touched]
    exact uuid
  · intro after kept
    apply failed
    rcases kept with same | ⟨moment, afterEq⟩
    · exact knows.congr (congrArg Database.projects same) (congrArg Database.functions same)
    · exact later moment after afterEq
  · intro moment after afterEq
    have knowsAfter := later moment after afterEq
    simp only [Query.execute] at afterEq ⊢
    cases answered : (FunctionQuery.execute moment (.createFunction
        project.projectUUID name language path isAsync createdBy) world.db).1 with
    | error err => exact failed err after knowsAfter
    | ok fn =>
        refine created fn after ⟨knowsAfter.admitted, List.forall_mem_cons.mpr ⟨?_, knowsAfter.known⟩⟩
        intro projectID touched
        rw [afterEq] at touched
        rw [functionProject_of_created answered touched]
        exact uuid

theorem createEndpoint_call (isProject : c.project = some project) {name method scope : String}
    {fnID : Uuid} {next : Except DbError Endpoint → PortalProgram Result}
    (knows : KnowsRows isAllowed c ids world) (member : fnID ∈ ids)
    (rest : ∀ response after, KnowsRows isAllowed c ids after →
      Ensures (StaysAt isAllowed) post (next response) after) :
    Ensures (StaysAt isAllowed) post (call (.query (.endpoint (.createEndpoint
      project.projectUUID name method scope fnID))) next) world := by
  refine ⟨?_, fun circumstance => rest _ _ ?_⟩
  · exact List.forall_mem_cons.mpr
      ⟨(knows.admitted project isProject).uuid, knows.known fnID member⟩
  · have same : SameFunctions world (PortalCall.execute (.query (.endpoint (.createEndpoint
        project.projectUUID name method scope fnID))) circumstance world).2 :=
      sameFunctions_execute rfl circumstance world
    exact knows.congr same.projects same.functions

/-- Registering a function leaves the database as it is. -/
theorem createFunctionCRD_call (isProject : c.project = some project)
    {req : Operator.CreateFunctionRequest} (inProject : req.project = project.projectName)
    {next : Option Bool → PortalProgram Result} (knows : KnowsRows isAllowed c ids world)
    (rest : ∀ response after, KnowsRows isAllowed c ids after →
      Ensures (StaysAt isAllowed) post (next response) after) :
    Ensures (StaysAt isAllowed) post (call (.createFunctionCRD req) next) world := by
  apply ensures_keeping rfl
  · intro projectID touched
    rw [PortalCall.touches, inProject] at touched
    exact (knows.admitted project isProject).named projectID touched
  · intro response after same
    apply rest response after
    exact knows.congr (congrArg Database.projects same) (congrArg Database.functions same)

theorem ensureEndpoint_knows (isProject : c.project = some project)
    {s : FunctionHandlers.SyncContext} (inProject : s.projectUUID = project.projectUUID)
    {fnID : Uuid} (member : fnID ∈ ids) (fnName : String)
    (knows : KnowsRows isAllowed c ids world) :
    Ensures (StaysAt isAllowed) (fun _ after => KnowsRows isAllowed c ids after)
      (FunctionHandlers.ensureEndpoint s fnID fnName) world := by
  unfold FunctionHandlers.ensureEndpoint
  rw [inProject]
  split
  · exact knows
  · exact createEndpoint_call isProject knows member fun _ _ => id

theorem syncFile_knows (settings : Settings) (isProject : c.project = some project)
    {s : FunctionHandlers.SyncContext} (inProject : s.projectUUID = project.projectUUID)
    (named : s.projectName = project.projectName) (path : String)
    (knows : KnowsRows isAllowed c (s.existingFns.map (·.id)) world) :
    Ensures (StaysAt isAllowed)
      (fun _ after => KnowsRows isAllowed c (s.existingFns.map (·.id)) after)
      (FunctionHandlers.syncFile settings s path) world := by
  unfold FunctionHandlers.syncFile
  cases FunctionHandlers.extLang (FunctionHandlers.ext path) with
  | none => exact knows
  | some lang =>
      dsimp only
      cases found : s.existingPath path with
      | some id =>
          obtain ⟨row, member, -, rfl⟩ := FunctionHandlers.mem_of_existingPath found
          exact ensureEndpoint_knows isProject inProject (List.mem_map.mpr ⟨row, member, rfl⟩) _ knows
      | none =>
          dsimp only
          rw [inProject, named, perform_bind]
          apply createFunction_call isProject knows
          · intro err after knowsAfter
            exact knowsAfter
          · intro fn after knowsAfter
            apply ensures_bind.mpr
            apply (ensureEndpoint_knows isProject inProject List.mem_cons_self _ knowsAfter).imp
              fun _ _ => id
            intro _ later knowsLater
            apply createFunctionCRD_call isProject rfl knowsLater
            intro _ last knowsLast
            exact ⟨knowsLast.admitted, (List.forall_mem_cons.mp knowsLast.known).2⟩

theorem syncFiles_knows (settings : Settings) (isProject : c.project = some project)
    {s : FunctionHandlers.SyncContext} (inProject : s.projectUUID = project.projectUUID)
    (named : s.projectName = project.projectName) (paths : List String)
    (knows : KnowsRows isAllowed c (s.existingFns.map (·.id)) world) :
    Ensures (StaysAt isAllowed)
      (fun _ after => KnowsRows isAllowed c (s.existingFns.map (·.id)) after)
      (FunctionHandlers.syncFiles settings s paths) world := by
  induction paths generalizing world with
  | nil => exact knows
  | cons path paths ih =>
      apply ensures_bind.mpr
      apply (syncFile_knows settings isProject inProject named path knows).imp fun _ _ => id
      intro _ after knowsAfter
      exact ih knowsAfter

/-- The rows of the project are known. -/
theorem knowsRows_ofProject (isProject : c.project = some project)
    (admitted : IsAdmitted isAllowed c world) :
    KnowsRows isAllowed c ((FunctionQuery.ofProject project.projectUUID world.db).map (·.id))
      world := by
  refine ⟨admitted, fun fnID member projectID touched => ?_⟩
  obtain ⟨row, isRow, rfl⟩ := List.mem_map.mp member
  obtain ⟨stored, ofProject⟩ := FunctionHandlers.mem_ofProject.mp isRow
  obtain ⟨other, isOther, rfl⟩ := List.mem_map.mp touched
  obtain ⟨otherStored, sameID⟩ := List.mem_filter.mp isOther
  have same : other = row := by
    apply Table.eq_of_conflicts (fun first second => ?_) otherStored stored
    · simp [FunctionRow.conflicts, of_decide_eq_true sameID]
    · simp only [FunctionRow.conflicts, eq_comm]
  rw [same, ofProject]
  exact (admitted project isProject).uuid

theorem syncRepoFunctionsToDb_stays (settings : Settings) (isProject : c.project = some project)
    (admitted : IsAdmitted isAllowed c world)
    (joined : ∀ projectID ∈ world.db.joinedProjects project.projectUUID, isAllowed projectID) :
    Ensures (StaysAt isAllowed) (fun _ after => IsAdmitted isAllowed c after)
      (FunctionHandlers.syncRepoFunctionsToDb settings project.projectUUID project.projectName
        c.userID) world := by
  unfold FunctionHandlers.syncRepoFunctionsToDb
  rw [perform_bind]
  apply ensures_keeping rfl
  · exact (admitted project isProject).named
  intro isNew opened sameOpened
  have admittedOpened := admitted.congr (congrArg Database.projects sameOpened)
  cases isNew with
  | false => exact admittedOpened
  | true =>
      rw [if_pos rfl, perform_bind]
      apply ensures_reading rfl
      · intro projectID touched
        rw [List.mem_singleton.mp touched]
        exact (admitted project isProject).uuid
      · intro after same
        exact admittedOpened.congr (congrArg Database.projects same)
      intro moment listed sameListed
      have sameDb : listed.db = world.db := sameListed.trans sameOpened
      have admittedListed := admitted.congr (congrArg Database.projects sameDb)
      have knows := knowsRows_ofProject isProject admittedListed
      rw [sameListed] at knows
      simp only [Query.execute, FunctionQuery.execute]
      rw [perform_bind]
      apply ensures_reading rfl
      · apply staysAt_joining isProject admittedListed
        rw [sameDb]
        exact joined
      · intro after same
        exact admittedListed.congr (congrArg Database.projects same)
      intro momentJoined joinedAt sameJoined
      simp only [Query.execute, EndpointQuery.execute]
      rw [perform_bind]
      apply ensures_keeping rfl
      · exact (admittedListed.congr (congrArg Database.projects sameJoined) project isProject).named
      intro files walked sameWalked
      have sameLast : walked.db = listed.db := sameWalked.trans sameJoined
      have knowsWalked := knows.congr (congrArg Database.projects sameLast)
        (congrArg Database.functions sameLast)
      apply ensures_bind.mpr
      apply (syncFiles_knows settings isProject rfl rfl files knowsWalked).imp fun _ _ => id
      intro _ after knowsAfter
      exact knowsAfter.admitted

theorem syncProject_stays (settings : Settings)
    (allows : AllowsRoute isAllowed c .syncProject world) :
    Stays isAllowed (ProjectHandlers.syncProject settings c) world := by
  apply stays_mustGetProject
  intro project isProject
  apply stays_bind (syncRepoFunctionsToDb_stays settings isProject allows.admitted
    (allows.joined project isProject rfl))
  intro isSynced
  cases isSynced with
  | false => trivial
  | true =>
      apply And.intro (isOwn_untouching rfl fun _ => rfl)
      intro client
      cases client with
      | error text => trivial
      | ok _ =>
          apply And.intro (isOwn_vcs isProject _)
          intro added
          cases added <;> trivial

end Sync

/-! ### New functions -/

theorem createFunction_stays (settings : Settings)
    (body : Option FunctionHandlers.CreateFunctionRequest)
    (admitted : IsAdmitted isAllowed c world) :
    Stays isAllowed (FunctionHandlers.createFunction settings c body) world := by
  apply stays_mustGetProject
  intro project isProject
  cases body with
  | none => trivial
  | some req =>
      dsimp only
      split
      · trivial
      rw [perform_bind]
      apply ensures_reading rfl
      · intro projectID touched
        rw [List.mem_singleton.mp touched]
        exact (admitted project isProject).uuid
      · intro after _
        trivial
      intro moment listed same
      have admittedListed := admitted.congr (congrArg Database.projects same)
      simp only [Query.execute, FunctionQuery.execute]
      split
      · trivial
      apply ensures_bind.mpr
      apply (stays_of_own (FunctionHandlers.mkdirs_makes (isOwn_repo isProject) _)
        admittedListed).imp fun _ _ => id
      intro _ made admittedMade
      rw [perform_bind]
      apply stays_own_call (isOwn_repo isProject _) admittedMade
      intro isCreated written admittedWritten
      cases isCreated with
      | false => trivial
      | true =>
          apply ensures_bind.mpr
          apply (stays_of_own (FunctionHandlers.commitAndPush_makes (isOwn_repo isProject) _ _)
            admittedWritten).imp fun _ _ => id
          intro failed pushed admittedPushed
          cases failed with
          | some replies => trivial
          | none =>
              have knows : KnowsRows isAllowed c [] pushed := ⟨admittedPushed, by simp⟩
              dsimp only
              rw [perform_bind]
              apply createFunction_call isProject knows
              · intro err after _
                trivial
              · intro fn after knowsAfter
                dsimp only
                rw [perform_bind]
                apply createEndpoint_call isProject knowsAfter List.mem_cons_self
                intro _ later knowsLater
                apply createFunctionCRD_call isProject rfl knowsLater
                intro _ _ _
                trivial

/-- A handler stays on the projects that its route addresses. -/
theorem handle_stays (settings : Settings) (cookies : Cookies) (route : ProjectRoute)
    (allows : AllowsRoute isAllowed c route world) :
    Stays isAllowed (route.handle settings cookies c) world := by
  have admitted := allows.admitted
  cases route with
  | configuration | dataPage | deleteProject => trivial
  | functionsPage => exact functionsPage_stays cookies allows
  | endpointsPage => exact endpointsPage_stays settings allows
  | listProjects => exact listProjects_stays allows
  | getProject id => exact stays_of_makes (getProject_isOwn id) admitted
  | syncProject => exact syncProject_stays settings allows
  | createProjectInvite => exact createProjectInvite_stays allows
  | listProjectAccess => exact stays_of_makes listProjectAccess_isOwn admitted
  | updateProjectAccess id body => exact stays_of_makes (updateProjectAccess_isOwn id body) admitted
  | revokeProjectAccess id => exact stays_of_makes (revokeProjectAccess_isOwn id) admitted
  | createFunction body => exact createFunction_stays settings body admitted
  | listFunctions search limit offset => exact listFunctions_stays search limit offset allows
  | getFunction fnID => exact getFunction_stays fnID allows
  | updateFunction fnID body => exact updateFunction_stays fnID body allows
  | deleteFunction fnID => exact deleteFunction_stays fnID allows
  | listEndpoints search limit offset => exact listEndpoints_stays search limit offset allows
  | getEndpoint epID => exact getEndpoint_stays epID allows
  | updateEndpoint epID body => exact updateEndpoint_stays epID body allows
  | actionsStatus params rounds => exact stays_of_makes (status_isOwn params rounds) admitted

end Handlers

end Portal

end Litefunctions
