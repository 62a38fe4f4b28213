import Litefunctions.CoherentRows
import Litefunctions.ProjectOwners

/-!
# Requests keep the rows together

Whatever fails while a request is served, and at whichever call, the statements
of its handler fit the rows that there are.  Most handlers make no call that
depends on the rows; the others store an endpoint only for a function that they
have read or stored in the same project.
-/

namespace Litefunctions

namespace Portal

open Program

/-! ### Calls -/

/-- The call starts or ends a user session. -/
def PortalCall.isOfSession : PortalCall → Bool
  | query (.auth (.createUserSession _ _ _)) => true
  | query (.auth (.deleteUserSession _)) => true
  | _ => false

/-- A call of a handler behind the middlewares. -/
structure PortalCall.IsOrderly (request : PortalCall) (before : World) : Prop where
  befits : request.Befits before
  noSession : request.isOfSession = false

/-- The call stores a project, a member or an invite, or asks for an object. -/
def PortalCall.admits : PortalCall → Bool
  | query (.project (.createProject _ _)) => true
  | query (.access (.addProjectOwner _ _)) => true
  | query (.access (.addViewerToProject _ _)) => true
  | query (.access (.createProjectInvite _ _ _ _)) => true
  | createFunctionCRD _ => true
  | _ => false

/-- A call that fits any rows, removes none that others refer to, admits nobody,
and belongs to no transaction. -/
def PortalCall.IsPlain : PortalCall → Prop
  | query (.project (.createProject _ _)) => False
  | query (.access (.addProjectOwner _ _)) => False
  | query (.access (.addViewerToProject _ _)) => False
  | query (.access (.createProjectInvite _ _ _ _)) => False
  | createFunctionCRD _ => False
  | query (.auth (.createUser id name _)) => id = Passkeys.bytesOf name
  | query (.auth (.createUserSession _ _ _)) => False
  | query (.auth (.deleteUserSession _)) => False
  | query (.function (.createFunction _ _ language path _ _)) =>
      FunctionHandlers.extLang (FunctionHandlers.ext path) = some language
  | query (.function (.updateFunctionPath id _)) => id = none
  | query (.function (.updateFunctionIsAsync id _)) => id = none
  | query (.function (.deleteFunction _)) => False
  | query (.endpoint (.createEndpoint _ _ _ _ _)) => False
  | begin => False
  | commit => False
  | rollback => False
  | _ => True

/-- Whether a call can change files of a repository. -/
def PortalCall.writes : PortalCall → Bool
  | repo _ (.create _ _) | repo _ (.remove _) | vcs _ .createRepo | vcs _ .addWorkflow => true
  | _ => false

/-- A plain call that changes no file. -/
structure PortalCall.IsCalm (request : PortalCall) : Prop where
  plain : request.IsPlain
  quiet : request.writes = false

theorem plain_of_calm {Result : Type} {program : PortalProgram Result}
    (calm : program.Makes PortalCall.IsCalm) : program.Makes PortalCall.IsPlain :=
  calm.imp fun _ isCalm => isCalm.plain

/-- Whether a call deletes no function and no transaction is about. -/
def PortalCall.isStep : PortalCall → Bool
  | query statement => !statement.deletes
  | begin | commit | rollback => false
  | _ => true

/-- The world later in the same transaction, with no named row removed. -/
structure Continues (world after : World) : Prop where
  saved : after.saved = world.saved
  named : KeepsNamed world.db after.db

theorem Continues.refl (world : World) : Continues world world :=
  ⟨rfl, .refl world.db⟩

theorem Continues.trans {first second third : World} (early : Continues first second)
    (late : Continues second third) : Continues first third :=
  ⟨late.saved.trans early.saved, early.named.trans late.named⟩

theorem PortalCall.IsPlain.isOrderly {request : PortalCall} (plain : request.IsPlain)
    (before : World) : request.IsOrderly before := by
  constructor
  · cases request with
    | query statement =>
        rcases statement with query | query | query | query | query <;> cases query <;> trivial
    | _ => trivial
  · unfold PortalCall.isOfSession
    split
    · exact plain.elim
    · exact plain.elim
    · rfl

theorem PortalCall.IsPlain.isStep {request : PortalCall} (plain : request.IsPlain) :
    request.isStep = true := by
  cases request with
  | query statement =>
      rcases statement with query | query | query | query | query <;> cases query <;>
        first | rfl | exact plain.elim
  | begin | commit | rollback => exact plain.elim
  | _ => rfl

theorem PortalCall.IsPlain.admits {request : PortalCall} (plain : request.IsPlain) :
    request.admits = false := by
  unfold PortalCall.admits
  split
  · exact plain.elim
  · exact plain.elim
  · exact plain.elim
  · exact plain.elim
  · exact plain.elim
  · rfl

theorem Query.continues_of_executed {statement : Query} {world after : World}
    (befits : statement.Befits world.db) (keeps : statement.deletes = false) (moment : Moment)
    (executed : after.db = (statement.execute moment world.db).2) (saved : after.saved = world.saved) :
    Continues world after :=
  ⟨saved, executed ▸ (statement.fittingChange moment befits keeps).keepsNamed⟩

/-- A call that fits any rows and keeps those that others refer to. -/
structure PortalCall.IsTame (request : PortalCall) : Prop where
  isOrderly : ∀ before, request.IsOrderly before
  isStep : request.isStep = true

theorem PortalCall.IsPlain.isTame {request : PortalCall} (plain : request.IsPlain) :
    request.IsTame :=
  ⟨plain.isOrderly, plain.isStep⟩

theorem PortalCall.continues_execute {request : PortalCall} {world : World}
    (befits : request.Befits world) (isStep : request.isStep = true) (circumstance : Circumstance) :
    Continues world (PortalCall.execute request circumstance world).2 := by
  cases request with
  | query statement =>
      have keeps : statement.deletes = false := by simpa [PortalCall.isStep] using isStep
      simp only [PortalCall.execute]
      cases circumstance.fault with
      | refused => exact ⟨rfl, .refl world.db⟩
      | none | lost => exact Query.continues_of_executed befits keeps _ rfl rfl
  | begin | commit | rollback => cases isStep
  | createFunctionCRD req =>
      simp only [PortalCall.execute]
      cases circumstance.fault <;> exact ⟨rfl, .refl world.db⟩
  | _ => exact ⟨rfl, .refl world.db⟩

/-! ### Rules -/

section Rules

variable {Result Other : Type} {post : Result → World → Prop} {world : World}

/-- All calls of the program are orderly. -/
abbrev Orderly (post : Result → World → Prop) (program : PortalProgram Result) (world : World) : Prop :=
  Ensures PortalCall.IsOrderly post program world

theorem orderly_step {request : PortalCall} {next : request.Response → PortalProgram Result}
    (orderly : request.IsOrderly world) (isStep : request.isStep = true)
    (rest : ∀ response after, Continues world after → Orderly post (next response) after) :
    Orderly post (call request next) world :=
  ⟨orderly, fun circumstance =>
    rest _ _ (PortalCall.continues_execute orderly.befits isStep circumstance)⟩

theorem orderly_plain {request : PortalCall} {next : request.Response → PortalProgram Result}
    (plain : request.IsPlain)
    (rest : ∀ response after, Continues world after → Orderly post (next response) after) :
    Orderly post (call request next) world :=
  orderly_step (plain.isOrderly world) plain.isStep rest

/-- A statement that the database answers, unless its answer is lost. -/
theorem orderly_statement {statement : Query}
    {next : Except DbError statement.Value → PortalProgram Result}
    (orderly : (PortalCall.query statement).IsOrderly world) (keeps : statement.deletes = false)
    (failed : ∀ after, Continues world after → Orderly post (next (.error .failed)) after)
    (answered : ∀ moment after, Continues world after →
      after.db = (statement.execute moment world.db).2 →
        Orderly post (next (statement.execute moment world.db).1) after) :
    Orderly post (call (.query statement) next) world := by
  apply And.intro orderly
  intro circumstance
  have continues {after : World} (moment : Moment)
      (executed : after.db = (statement.execute moment world.db).2) (saved : after.saved = world.saved) :
      Continues world after := Query.continues_of_executed orderly.befits keeps moment executed saved
  simp only [PortalCall.execute]
  cases circumstance.fault with
  | none => exact answered _ _ (continues _ rfl rfl) rfl
  | refused => exact failed _ ⟨rfl, .refl world.db⟩
  | lost => exact failed _ (continues _ rfl rfl)

theorem orderly_of_tame {program : PortalProgram Result} (tame : program.Makes PortalCall.IsTame) :
    Orderly (fun _ after => Continues world after) program world := by
  have ensures : program.Ensures PortalCall.execute
      (fun request after => request.IsTame ∧ Continues world after)
      (fun _ after => Continues world after) world := by
    apply (tame.along []).ensures _ (.refl world)
    intro request circumstance before isTame continues
    exact continues.trans
      (PortalCall.continues_execute (isTame.isOrderly before).befits isTame.isStep circumstance)
  apply ensures.imp _ fun _ _ => id
  intro request before held
  exact held.1.isOrderly before

theorem orderly_of_plain {program : PortalProgram Result} (plain : program.Makes PortalCall.IsPlain) :
    Orderly (fun _ after => Continues world after) program world :=
  orderly_of_tame (plain.imp fun _ isPlain => isPlain.isTame)

theorem orderly_mustGetProject {c : Context} {handler : ProjectContext → Replies}
    {last : List Reply → World → Prop} (panics : last [.panicked] world)
    (orderly : ∀ project, c.project = some project → Orderly last (handler project) world) :
    Orderly last (c.mustGetProject handler) world := by
  unfold Context.mustGetProject
  cases isProject : c.project with
  | none => exact panics
  | some project => exact orderly project isProject

/-- A transaction is over when the handler goes on. -/
theorem orderly_inTransaction {Value : Type} {refused failed : Reply}
    {work : PortalProgram (Except (List Reply) Value)} {next : Value → Replies}
    (committable : Value → Database → Prop) (closed : world.saved = none)
    (works : ∀ begun : World, begun.db = world.db →
      Orderly (fun result after => ∀ value, result = .ok value → committable value after.db) work begun)
    (continues : ∀ value after, after.saved = none → committable value after.db →
      Orderly (fun _ last => last.saved = none) (next value) after) :
    Orderly (fun _ after => after.saved = none)
      (ProjectHandlers.inTransaction refused failed work next) world := by
  apply And.intro ⟨trivial, rfl⟩
  intro circumstance
  simp only [PortalCall.execute]
  cases circumstance.fault with
  | refused | lost => exact closed
  | none =>
      have worked := works { world with
        saved := some world.db
        clock := world.clock + circumstance.elapsed } rfl
      show Orderly _ (work >>= _) _
      refine ensures_bind.mpr (worked.imp (fun _ _ => id) ?_)
      intro result after commits
      cases result with
      | error replies => exact ⟨⟨trivial, rfl⟩, fun _ => rfl⟩
      | ok value =>
          apply And.intro ⟨trivial, rfl⟩
          intro circumstance
          simp only [PortalCall.execute]
          cases circumstance.fault with
          | none => exact continues value _ rfl (commits value rfl)
          | refused | lost => rfl

end Rules

/-- The context names a stored project. -/
def Database.KnowsProject (db : Database) (projectUUID : Uuid) (projectName : String) : Prop :=
  ∃ project ∈ db.projects.rows, project.id = projectUUID ∧ project.name = projectName

theorem KeepsNamed.knowsProject {db after : Database} (keeps : KeepsNamed db after)
    {projectUUID : Uuid} {projectName : String} (knows : db.KnowsProject projectUUID projectName) :
    after.KnowsProject projectUUID projectName :=
  knows.imp fun project held => ⟨keeps.projects project held.1, held.2⟩

/-! ### Calm handlers -/

section Calm

theorem listEndpointsForProject_calm (projectUUID : Uuid) :
    (FunctionHandlers.listEndpointsForProject projectUUID).Makes PortalCall.IsCalm := by
  apply And.intro ⟨trivial, rfl⟩
  intro listed
  cases listed <;> trivial

theorem userNameOr_calm (userID : Bytes) (otherwise : String) :
    (UIHandlers.userNameOr userID otherwise).Makes PortalCall.IsCalm := by
  apply And.intro ⟨trivial, rfl⟩
  intro found
  cases found <;> trivial

theorem send_calm (project : String) (opts : ActionsProgressOptions) :
    (ActionHandlers.send project opts).Makes PortalCall.IsCalm := by
  apply And.intro ⟨trivial, rfl⟩
  intro progress
  cases progress <;> trivial

theorem sendUntilGone_calm (project : String) (opts : ActionsProgressOptions) (rounds : Nat) :
    (ActionHandlers.sendUntilGone project opts rounds).Makes PortalCall.IsCalm := by
  induction rounds with
  | zero => trivial
  | succ rounds ih =>
      apply And.intro ⟨trivial, rfl⟩
      intro isGone
      cases isGone with
      | true => trivial
      | false => exact (send_calm _ _).bind fun _ => ih.bind fun _ => trivial

/-- The routes whose handlers make calm calls only. -/
def ProjectRoute.isCalm : ProjectRoute → Bool
  | syncProject | createProjectInvite | createFunction _ | updateFunction _ _ | deleteFunction _ => false
  | _ => true

theorem ProjectRoute.handle_calm {route : ProjectRoute} (isCalm : route.isCalm = true)
    (settings : Settings) (cookies : Cookies) (c : Context) :
    (route.handle settings cookies c).Makes PortalCall.IsCalm := by
  cases route with
  | syncProject | createProjectInvite | createFunction _ | updateFunction _ _ | deleteFunction _ =>
      cases isCalm
  | configuration | dataPage | deleteProject _ => trivial
  | functionsPage =>
      apply mustGetProject_makes c
      intro project _
      apply (listEndpointsForProject_calm _).bind
      intro eps
      apply And.intro ⟨trivial, rfl⟩
      intro listed
      cases listed with
      | error err => exact (userNameOr_calm _ _).bind fun _ => trivial
      | ok rows => exact (userNameOr_calm _ _).bind fun _ => trivial
  | endpointsPage =>
      exact mustGetProject_makes c fun _ _ =>
        (listEndpointsForProject_calm _).bind fun _ => trivial
  | listProjects =>
      apply And.intro ⟨trivial, rfl⟩
      intro listed
      cases listed <;> trivial
  | getProject id =>
      refine mustGetProject_makes c fun project _ => ⟨⟨trivial, rfl⟩, fun found => ?_⟩
      cases found <;> trivial
  | listProjectAccess =>
      refine mustGetProject_makes c fun project _ => ⟨⟨trivial, rfl⟩, fun listed => ?_⟩
      cases listed <;> trivial
  | updateProjectAccess id body =>
      apply mustGetProject_makes c
      intro project _
      cases body with
      | none => trivial
      | some role =>
          apply And.intro ⟨trivial, rfl⟩
          intro updated
          cases updated <;> trivial
  | revokeProjectAccess id =>
      refine mustGetProject_makes c fun project _ => ⟨⟨trivial, rfl⟩, fun revoked => ?_⟩
      cases revoked <;> trivial
  | listFunctions search limit offset =>
      refine mustGetProject_makes c fun project _ => ⟨⟨trivial, rfl⟩, fun listed => ?_⟩
      cases listed with
      | error err => trivial
      | ok fns => exact (listEndpointsForProject_calm _).bind fun _ => trivial
  | getFunction fnID =>
      show (FunctionHandlers.getFunction c fnID).Makes PortalCall.IsCalm
      unfold FunctionHandlers.getFunction
      cases HexText.decode fnID with
      | none => trivial
      | some bytes =>
          apply And.intro ⟨trivial, rfl⟩
          intro found
          cases found with
          | error err => trivial
          | ok f =>
              refine mustGetProject_makes c fun project _ => ⟨⟨trivial, rfl⟩, fun data => ?_⟩
              rcases data with (_ | _) | _ <;> trivial
  | listEndpoints search limit offset =>
      refine mustGetProject_makes c fun project _ => ⟨⟨trivial, rfl⟩, fun listed => ?_⟩
      cases listed <;> trivial
  | getEndpoint epID =>
      show (EndpointHandlers.getEndpoint epID).Makes PortalCall.IsCalm
      unfold EndpointHandlers.getEndpoint
      cases HexText.decode epID with
      | none => trivial
      | some bytes =>
          apply And.intro ⟨trivial, rfl⟩
          intro found
          cases found <;> trivial
  | updateEndpoint epID body =>
      show (EndpointHandlers.updateEndpoint epID body).Makes PortalCall.IsCalm
      unfold EndpointHandlers.updateEndpoint
      cases HexText.decode epID with
      | none => trivial
      | some bytes =>
          cases body with
          | none => trivial
          | some req =>
              apply And.intro ⟨trivial, rfl⟩
              intro updated
              cases updated <;> trivial
  | actionsStatus params rounds =>
      apply And.intro ⟨trivial, rfl⟩
      intro client
      cases client with
      | error text => trivial
      | ok _ =>
          apply mustGetProject_makes c
          intro project _
          cases params.limit? with
          | none => trivial
          | some limit =>
              exact (send_calm _ _).bind fun _ =>
                (sendUntilGone_calm _ _ rounds).bind fun _ => trivial

/-- The routes whose handlers make plain calls only. -/
def ProjectRoute.isPlain : ProjectRoute → Bool
  | syncProject | createProjectInvite | createFunction _ | deleteFunction _ => false
  | _ => true

theorem ProjectRoute.handle_plain {route : ProjectRoute} (isPlain : route.isPlain = true)
    (settings : Settings) (cookies : Cookies) (c : Context) :
    (route.handle settings cookies c).Makes PortalCall.IsPlain := by
  cases isCalm : route.isCalm with
  | true => exact plain_of_calm (handle_calm isCalm settings cookies c)
  | false =>
      cases route with
      | updateFunction fnID body =>
          exact FunctionHandlers.updateFunction_makes (fun _ _ _ => trivial) (fun _ => trivial)
            (fun _ => rfl) (fun _ => rfl) fnID body
      | syncProject | createProjectInvite | createFunction _ | deleteFunction _ => cases isPlain
      | _ => cases isCalm

theorem dashboard_calm (cookies : Cookies) (c : Context) :
    (UIHandlers.dashboard cookies c).Makes PortalCall.IsCalm := by
  apply And.intro ⟨trivial, rfl⟩
  intro listed
  cases listed with
  | error err => exact (userNameOr_calm _ _).bind fun _ => trivial
  | ok rows => exact (userNameOr_calm _ _).bind fun _ => trivial

theorem authMiddleware_calm (cookies : Cookies) (path : String) :
    (authMiddleware cookies path).Makes PortalCall.IsCalm := by
  unfold authMiddleware
  cases cookies.session with
  | none => trivial
  | some sessionID =>
      apply And.intro ⟨trivial, rfl⟩
      intro found
      cases found with
      | error err => trivial
      | ok session =>
          apply And.intro ⟨trivial, rfl⟩
          intro found
          cases found <;> trivial

end Calm

/-! ### Storing functions and endpoints -/

section Storing

variable {world : World} {projectUUID : Uuid} {projectName : String}

/-- The function that the statement answers with is stored. -/
theorem createFunction_stored {moment : Moment} {db : Database} {name language path : String}
    {isAsync : Bool} {createdBy : Bytes} {fn : FunctionRow}
    (isOk : (Query.execute moment (.function
      (.createFunction projectUUID name language path isAsync createdBy)) db).1 = .ok fn) :
    fn ∈ (Query.execute moment (.function
        (.createFunction projectUUID name language path isAsync createdBy)) db).2.functions.rows ∧
      fn.projectID = projectUUID ∧ fn.name = name := by
  revert isOk
  simp only [Query.execute, FunctionQuery.execute]
  split
  · rintro ⟨⟩
  · split
    · rintro ⟨⟩
    · next functions inserted =>
        intro isOk
        rw [← Except.ok.inj isOk]
        exact ⟨(Table.mem_insert inserted).mpr (.inr rfl), rfl, rfl⟩

/-- The functions of a list are stored in the project. -/
def Database.KnowsFunctions (db : Database) (projectUUID : Uuid) (fns : List FunctionRow) : Prop :=
  ∀ row ∈ fns, row ∈ db.functions.rows ∧ row.projectID = projectUUID

theorem KeepsNamed.knowsFunctions {db after : Database} (keeps : KeepsNamed db after)
    {fns : List FunctionRow} (knows : db.KnowsFunctions projectUUID fns) :
    after.KnowsFunctions projectUUID fns :=
  fun row member => (knows row member).imp_left (keeps.functions row)

theorem ensureEndpoint_orderly {s : FunctionHandlers.SyncContext} {row : FunctionRow}
    {fnName : String} (knows : world.db.KnowsProject s.projectUUID s.projectName)
    (isStored : row ∈ world.db.functions.rows) (inProject : row.projectID = s.projectUUID)
    (named : fnName = row.name ∨ fnName = FunctionHandlers.nameOf row.path) :
    Orderly (fun _ after => Continues world after)
      (FunctionHandlers.ensureEndpoint s row.id fnName) world := by
  unfold FunctionHandlers.ensureEndpoint
  split
  · exact .refl world
  · refine orderly_step ⟨?_, rfl⟩ rfl fun _ after continues => continues
    obtain ⟨project, member, isProject, isName⟩ := knows
    refine ⟨project, member, isProject, row, isStored, rfl, inProject, ?_⟩
    rw [isName]
    exact named.imp (fun same => by rw [same]) fun same => by rw [same]

theorem syncFile_orderly (settings : Settings) {s : FunctionHandlers.SyncContext}
    (knows : world.db.KnowsProject s.projectUUID s.projectName)
    (stored : world.db.KnowsFunctions s.projectUUID s.existingFns) (path : String) :
    Orderly (fun _ after => Continues world after) (FunctionHandlers.syncFile settings s path)
      world := by
  unfold FunctionHandlers.syncFile
  cases isLang : FunctionHandlers.extLang (FunctionHandlers.ext path) with
  | none => exact .refl world
  | some lang =>
      dsimp only
      cases found : s.existingPath path with
      | some id =>
          obtain ⟨row, member, isPath, rfl⟩ := FunctionHandlers.mem_of_existingPath found
          obtain ⟨isStored, inProject⟩ := stored row member
          apply ensureEndpoint_orderly knows isStored inProject
          exact .inr (by rw [isPath, FunctionHandlers.trimSuffix_base])
      | none =>
          dsimp only
          rw [perform_bind]
          refine orderly_statement ⟨isLang, rfl⟩ rfl (fun after continues => continues) ?_
          intro moment after continues executed
          cases created : (Query.execute moment (.function (.createFunction s.projectUUID
              (FunctionHandlers.trimSuffix (FunctionHandlers.base path) (FunctionHandlers.ext path))
              lang path false s.userID)) world.db).1 with
          | error err => exact continues
          | ok fn =>
              obtain ⟨isStored, inProject, isName⟩ := createFunction_stored created
              rw [← executed] at isStored
              apply ensures_bind.mpr
              apply (ensureEndpoint_orderly (continues.named.knowsProject knows) isStored inProject
                (.inl isName.symm)).imp fun _ _ => id
              intro _ later continuesLater
              refine orderly_step ⟨trivial, rfl⟩ rfl fun _ last continuesLast => ?_
              exact continues.trans (continuesLater.trans continuesLast)

theorem syncFiles_orderly (settings : Settings) {s : FunctionHandlers.SyncContext}
    (knows : world.db.KnowsProject s.projectUUID s.projectName)
    (stored : world.db.KnowsFunctions s.projectUUID s.existingFns) (paths : List String) :
    Orderly (fun _ after => Continues world after) (FunctionHandlers.syncFiles settings s paths)
      world := by
  induction paths generalizing world with
  | nil => exact .refl world
  | cons path paths ih =>
      apply ensures_bind.mpr
      apply (syncFile_orderly settings knows stored path).imp fun _ _ => id
      intro _ after continues
      apply (ih (continues.named.knowsProject knows) (continues.named.knowsFunctions stored)).imp
        fun _ _ => id
      exact fun _ last later => continues.trans later

theorem syncRepoFunctionsToDb_orderly (settings : Settings) (userID : Bytes)
    (knows : world.db.KnowsProject projectUUID projectName) :
    Orderly (fun _ after => Continues world after)
      (FunctionHandlers.syncRepoFunctionsToDb settings projectUUID projectName userID) world := by
  unfold FunctionHandlers.syncRepoFunctionsToDb
  rw [perform_bind]
  refine orderly_plain trivial fun isNew opened continues => ?_
  cases isNew with
  | false => exact continues
  | true =>
      rw [if_pos rfl, perform_bind]
      refine orderly_statement ⟨trivial, rfl⟩ rfl (fun after later => continues.trans later) ?_
      intro moment listed continuesListed executed
      have stored : listed.db.KnowsFunctions projectUUID
          (FunctionQuery.ofProject projectUUID opened.db) := by
        intro row member
        rw [executed]
        exact FunctionHandlers.mem_ofProject.mp member
      simp only [Query.execute, FunctionQuery.execute]
      rw [perform_bind]
      refine orderly_plain trivial fun eps joined continuesJoined => ?_
      have sinceStart := (continues.trans continuesListed).trans continuesJoined
      cases eps with
      | error err => exact sinceStart
      | ok existingEps =>
          dsimp only
          rw [perform_bind]
          refine orderly_plain trivial fun files walked continuesWalked => ?_
          have sinceListed := continuesJoined.trans continuesWalked
          apply ensures_bind.mpr
          apply (syncFiles_orderly (s := ⟨projectUUID, projectName, userID, _, existingEps⟩)
            settings
            ((continuesListed.trans sinceListed).named.knowsProject (continues.named.knowsProject knows))
            (sinceListed.named.knowsFunctions stored) files).imp fun _ _ => id
          exact fun _ last continuesLast =>
            (continues.trans (continuesListed.trans sinceListed)).trans continuesLast

variable {c : Context}

theorem syncProject_orderly (settings : Settings)
    (knows : ∀ project, c.project = some project →
      world.db.KnowsProject project.projectUUID project.projectName) :
    Orderly (fun _ after => after.saved = world.saved) (ProjectHandlers.syncProject settings c)
      world := by
  apply orderly_mustGetProject rfl
  intro project isProject
  apply ensures_bind.mpr
  apply (syncRepoFunctionsToDb_orderly settings c.userID (knows project isProject)).imp fun _ _ => id
  intro isSynced after continues
  refine (orderly_of_plain ?_).imp (fun _ _ => id) fun _ last later =>
    later.saved.trans continues.saved
  cases isSynced with
  | false => trivial
  | true =>
      apply And.intro trivial
      intro client
      cases client with
      | error text => trivial
      | ok _ =>
          apply And.intro trivial
          intro added
          cases added <;> trivial

theorem createFunction_orderly (settings : Settings)
    (body : Option FunctionHandlers.CreateFunctionRequest)
    (knows : ∀ project, c.project = some project →
      world.db.KnowsProject project.projectUUID project.projectName) :
    Orderly (fun _ after => after.saved = world.saved)
      (FunctionHandlers.createFunction settings c body) world := by
  apply orderly_mustGetProject rfl
  intro project isProject
  cases body with
  | none => rfl
  | some req =>
      dsimp only
      split
      · rfl
      · next isLanguage =>
          obtain ⟨language, tag⟩ := (Language.langExt_ne_empty_iff req.language).mp isLanguage
          refine orderly_plain trivial fun listed afterList continues => ?_
          cases listed with
          | error err => exact continues.saved
          | ok fns =>
              show Orderly _ (if fns.any (·.name = req.name) = true then _ else _) _
              split
              · exact continues.saved
              · apply ensures_bind.mpr
                apply (orderly_of_plain (FunctionHandlers.mkdirs_makes (fun _ => trivial) _)).imp
                  fun _ _ => id
                intro _ made continuesMade
                rw [perform_bind]
                refine orderly_plain trivial fun isCreated created continuesCreated => ?_
                have untilCreated := (continues.trans continuesMade).trans continuesCreated
                cases isCreated with
                | false => exact untilCreated.saved
                | true =>
                    rw [Bool.not_true, if_neg Bool.false_ne_true]
                    apply ensures_bind.mpr
                    apply (orderly_of_plain
                      (FunctionHandlers.commitAndPush_makes (fun _ => trivial) _ _)).imp fun _ _ => id
                    intro failed pushed continuesPushed
                    have untilPushed := untilCreated.trans continuesPushed
                    cases failed with
                    | some replies => exact untilPushed.saved
                    | none =>
                        have fits : FunctionHandlers.extLang (FunctionHandlers.ext
                            s!"functions/{req.language}/{req.name}{Language.langExt req.language}") =
                              some req.language := by
                          have path := FunctionHandlers.file_eq_pathOf language tag
                          rw [FunctionHandlers.CreateFunctionRequest.file] at path
                          rw [path, FunctionHandlers.ext_pathOf, FunctionHandlers.extLang_ext, tag]
                        refine orderly_statement ⟨fits, rfl⟩ rfl
                          (fun after later => later.saved.trans untilPushed.saved) ?_
                        intro moment after continuesAfter executed
                        have untilAfter := untilPushed.trans continuesAfter
                        cases stored : (Query.execute moment (.function (.createFunction
                            project.projectUUID req.name req.language
                            s!"functions/{req.language}/{req.name}{Language.langExt req.language}"
                            req.isAsync c.userID)) pushed.db).1 with
                        | error err => exact untilAfter.saved
                        | ok fn =>
                            obtain ⟨isStored, inProject, isName⟩ := createFunction_stored stored
                            rw [← executed] at isStored
                            refine orderly_step ⟨?_, rfl⟩ rfl fun _ later continuesLater => ?_
                            · obtain ⟨row, member, isRow, sameName⟩ :=
                                untilAfter.named.knowsProject (knows project isProject)
                              refine ⟨row, member, isRow, fn, isStored, rfl, inProject, .inl ?_⟩
                              rw [sameName, isName]
                            · refine orderly_step ⟨trivial, rfl⟩ rfl fun _ last continuesLast => ?_
                              exact ((untilAfter.trans continuesLater).trans continuesLast).saved

theorem deleteFunction_orderly (coherent : Coherent world.db) (fnHex : String) :
    Orderly (fun _ after => after.saved = world.saved) (FunctionHandlers.deleteFunction c fnHex)
      world := by
  unfold FunctionHandlers.deleteFunction
  cases HexText.decode fnHex with
  | none => rfl
  | some fnID =>
      refine orderly_statement ⟨trivial, rfl⟩ rfl (fun after continues => continues.saved) ?_
      intro moment read continues _
      simp only [Query.execute, FunctionQuery.execute, Option.bind_some]
      cases found : world.db.function? (.copy fnID) with
      | none => exact continues.saved
      | some f =>
          -- the row that is put back was a row of the database
          have language := (coherent.functions f (function?_some found).1).2.2
          have restores : ∀ text,
              (FunctionHandlers.restoreFunction f text).Makes PortalCall.IsPlain :=
            fun text => ⟨language, fun _ => trivial⟩
          refine ⟨⟨trivial, rfl⟩, fun circumstance => ?_⟩
          have saved : (PortalCall.execute (.query (.function (.deleteFunction (some (.copy fnID)))))
              circumstance read).2.saved = world.saved := by
            simp only [PortalCall.execute]
            cases circumstance.fault <;> exact continues.saved
          generalize (PortalCall.execute (.query (.function (.deleteFunction (some (.copy fnID)))))
            circumstance read) = deleted at saved ⊢
          obtain ⟨answer, after⟩ := deleted
          cases answer with
          | error err => exact saved
          | ok _ =>
              refine (orderly_of_plain ?_).imp (fun _ _ => id) fun _ last later =>
                later.saved.trans saved
              refine mustGetProject_makes c fun project _ => ⟨trivial, fun isRemoved => ?_⟩
              cases isRemoved with
              | false => exact restores _
              | true =>
                  apply And.intro trivial
                  intro committed
                  cases committed with
                  | error err => exact restores _
                  | ok _ =>
                      apply And.intro trivial
                      intro isPushed
                      cases isPushed with
                      | false => exact restores _
                      | true => trivial

end Storing

/-! ### Transactions -/

section Transactions

variable {world : World} {c : Context}

theorem isTame_access (query : AccessQuery) : (PortalCall.query (.access query)).IsTame :=
  ⟨fun _ => ⟨trivial, rfl⟩, rfl⟩

theorem createInviteInTx_tame (user : Bytes) (project : Uuid) :
    (ProjectHandlers.createInviteInTx user project).Makes PortalCall.IsTame := by
  apply And.intro (isTame_access _)
  intro role
  cases role with
  | error err => trivial
  | ok role =>
      show (if role ≠ "owner" then _ else _ : PortalProgram _).Makes PortalCall.IsTame
      split
      · trivial
      · refine ⟨⟨fun _ => ⟨trivial, rfl⟩, rfl⟩, fun draws => ⟨⟨fun _ => ⟨trivial, rfl⟩, rfl⟩,
          fun issued => ⟨isTame_access _, fun created => ?_⟩⟩⟩
        cases created <;> trivial

theorem joinInTx_tame (user : Bytes) (code : String) :
    (ProjectHandlers.joinInTx user code).Makes PortalCall.IsTame := by
  apply And.intro (isTame_access _)
  intro found
  cases found with
  | error err => trivial
  | ok invite =>
      show (if invite.createdBy = user then _ else _ : PortalProgram _).Makes PortalCall.IsTame
      split
      · trivial
      · apply And.intro (isTame_access _)
        intro added
        cases added with
        | error err => trivial
        | ok _ =>
            apply And.intro (isTame_access _)
            intro consumed
            cases consumed <;> trivial

theorem createProjectInvite_orderly (closed : world.saved = none) :
    Orderly (fun _ after => after.saved = none) (ProjectHandlers.createProjectInvite c) world := by
  apply orderly_mustGetProject closed
  intro project _
  apply orderly_inTransaction (fun _ _ => True) closed
  · intro begun _
    exact (orderly_of_tame (createInviteInTx_tame _ _)).imp (fun _ _ => id) fun _ _ _ _ _ => trivial
  · intro invite after closedAfter _
    exact closedAfter

theorem joinProjectByInvite_orderly (closed : world.saved = none) (code : Option String) :
    Orderly (fun _ after => after.saved = none) (ProjectHandlers.joinProjectByInvite c code)
      world := by
  unfold ProjectHandlers.joinProjectByInvite
  split
  · exact closed
  · apply orderly_inTransaction (fun _ _ => True) closed
    · intro begun _
      exact (orderly_of_tame (joinInTx_tame _ _)).imp (fun _ _ => id) fun _ _ _ _ _ => trivial
    · intro invite after closedAfter _
      exact closedAfter

private theorem addWorkflow_orderly (project : Project) (repoName : String) {name : String}
    (knows : world.db.KnowsProject project.id name) :
    Orderly (fun result after => ∀ value, result = .ok value → after.db.KnowsProject value.id name)
      (ProjectHandlers.createProjectInTx.addWorkflow project repoName) world := by
  refine orderly_plain trivial fun added after continues => ?_
  cases added with
  | error text => exact nofun
  | ok _ =>
      intro value isValue
      rw [← Except.ok.inj isValue]
      exact continues.named.knowsProject knows

private theorem addWebhook_orderly (settings : Settings) (project : Project) (repoName : String)
    {name : String} (knows : world.db.KnowsProject project.id name) :
    Orderly (fun result after => ∀ value, result = .ok value → after.db.KnowsProject value.id name)
      (ProjectHandlers.createProjectInTx.addWebhook settings project repoName) world := by
  refine orderly_plain trivial fun added after continues => ?_
  have workflow := addWorkflow_orderly project repoName (continues.named.knowsProject knows)
  cases added with
  | ok _ => exact workflow
  | error text =>
      show Orderly _ (if ProjectHandlers.alreadyExists text = true then _ else _) _
      split
      · exact workflow
      · exact nofun

theorem createProjectInTx_orderly (settings : Settings) (name : String) :
    Orderly (fun result after => ∀ value, result = .ok value → after.db.KnowsProject value.id name)
      (ProjectHandlers.createProjectInTx settings c name) world := by
  unfold ProjectHandlers.createProjectInTx
  rw [perform_bind]
  refine orderly_statement ⟨trivial, rfl⟩ rfl (fun _ _ _ isOk => by cases isOk) ?_
  intro moment created continues executed
  cases answered : (Query.execute moment (.project (.createProject name c.userID)) world.db).1 with
  | error err => rintro value ⟨⟩
  | ok project =>
      have knows : created.db.KnowsProject project.id name := by
        revert answered
        rw [executed]
        simp only [Query.execute, ProjectQuery.execute]
        split
        · rintro ⟨⟩
        · split
          · rintro ⟨⟩
          · next projects inserted =>
              intro answered
              rw [← Except.ok.inj answered]
              exact ⟨_, (Table.mem_insert inserted).mpr (.inr rfl), rfl, rfl⟩
      refine orderly_step ⟨trivial, rfl⟩ rfl fun owned afterOwned continuesOwned => ?_
      cases owned with
      | error err => rintro value ⟨⟩
      | ok _ =>
          refine orderly_plain trivial fun repo afterRepo continuesRepo => ?_
          have webhook (repoName : String) := addWebhook_orderly settings project repoName
            ((continuesOwned.trans continuesRepo).named.knowsProject knows)
          cases repo with
          | ok repoName => exact webhook repoName
          | error text =>
              show Orderly _ (if ProjectHandlers.alreadyExists text = true then _ else _) _
              split
              · exact webhook name
              · rintro value ⟨⟩

theorem createProject_orderly (settings : Settings) (closed : world.saved = none)
    (body : Option String) :
    Orderly (fun _ after => after.saved = none) (ProjectHandlers.createProject settings c body)
      world := by
  cases body with
  | none => exact closed
  | some reqName =>
      refine orderly_plain trivial fun client after continues => ?_
      cases client with
      | error text => exact continues.saved.trans closed
      | ok _ =>
          apply orderly_inTransaction
            (fun project db => db.KnowsProject project.id (reqName.map settings.toLower))
            (continues.saved.trans closed)
          · intro begun _
            exact createProjectInTx_orderly settings _
          · intro project committed closedNow knows
            apply ensures_bind.mpr
            apply (syncRepoFunctionsToDb_orderly settings c.userID knows).imp fun _ _ => id
            intro _ last synced
            exact synced.saved.trans closedNow

end Transactions

/-! ### Requests behind the middlewares -/

section Routes

variable {world : World} {c : Context}

theorem ProjectRoute.handle_orderly (route : ProjectRoute) (settings : Settings) (cookies : Cookies)
    (coherent : Coherent world.db) (closed : world.saved = none)
    (knows : ∀ project, c.project = some project →
      world.db.KnowsProject project.projectUUID project.projectName) :
    Orderly (fun _ after => after.saved = none) (route.handle settings cookies c) world := by
  have closes : ∀ {program : Replies},
      Orderly (fun _ after => after.saved = world.saved) program world →
      Orderly (fun _ after => after.saved = none) program world :=
    fun orderly => orderly.imp (fun _ _ => id) fun _ _ saved => saved.trans closed
  cases isPlain : route.isPlain with
  | true =>
      exact (orderly_of_plain (route.handle_plain isPlain settings cookies c)).imp (fun _ _ => id)
        fun _ _ continues => continues.saved.trans closed
  | false =>
      cases route with
      | syncProject => exact closes (syncProject_orderly settings knows)
      | createProjectInvite => exact createProjectInvite_orderly closed
      | createFunction body => exact closes (createFunction_orderly settings body knows)
      | deleteFunction fnID => exact closes (deleteFunction_orderly coherent fnID)
      | _ => cases isPlain

theorem UserRoute.handle_orderly (route : UserRoute) (settings : Settings) (cookies : Cookies)
    (closed : world.saved = none) :
    Orderly (fun _ after => after.saved = none) (route.handle settings cookies c) world := by
  cases route with
  | dashboard =>
      exact (orderly_of_plain (plain_of_calm (dashboard_calm cookies c))).imp (fun _ _ => id)
        fun _ _ continues => continues.saved.trans closed
  | createProject body => exact createProject_orderly settings closed body
  | joinProjectByInvite code => exact joinProjectByInvite_orderly closed code

theorem projectMiddleware_orderly (cookies : Cookies) :
    Orderly (fun result after => Continues world after ∧ ∀ project, result = .ok project →
        after.db.KnowsProject project.projectUUID project.projectName)
      (projectMiddleware cookies) world := by
  have declined (replies : List Reply) (after : World) : ∀ project : ProjectContext,
      Except.error replies = .ok project →
        after.db.KnowsProject project.projectUUID project.projectName := by
    rintro project ⟨⟩
  unfold projectMiddleware
  cases cookies.project with
  | none => exact ⟨.refl world, declined _ _⟩
  | some projectIDHex =>
      dsimp only
      cases HexText.decode projectIDHex with
      | none => exact ⟨.refl world, declined _ _⟩
      | some projectIDBytes =>
          dsimp only
          split
          · exact ⟨.refl world, declined _ _⟩
          · rw [perform_bind]
            refine orderly_statement ⟨trivial, rfl⟩ rfl (fun _ continues => ⟨continues, declined _ _⟩) ?_
            intro moment read continues _
            simp only [Query.execute, ProjectQuery.execute]
            cases found : world.db.project? (.copy projectIDBytes) with
            | none => exact ⟨continues, declined _ _⟩
            | some proj =>
                refine orderly_plain trivial fun isNew opened later => ?_
                cases isNew with
                | false => exact ⟨continues.trans later, declined _ _⟩
                | true =>
                    apply And.intro (continues.trans later)
                    intro project isProject
                    rw [← Except.ok.inj isProject]
                    obtain ⟨member, isID⟩ := Table.find?_some found
                    exact (continues.trans later).named.knowsProject
                      ⟨proj, member, of_decide_eq_true isID, rfl⟩

/-- Orderly calls keep a coherent database coherent. -/
theorem Orderly.coherent {Result : Type} {post : Result → World → Prop}
    {program : PortalProgram Result} (orderly : Orderly post program world)
    (coherent : CoherentWorld world) :
    Orderly (fun result after => post result after ∧ CoherentWorld after) program world :=
  (Ensures.keeps orderly (fun _ circumstance _ isOrderly held =>
    held.execute isOrderly.befits circumstance) coherent).imp (fun _ _ held => held.1) fun _ _ => id

theorem authenticate_orderly {cookies : Cookies} {path : String} {handler : Context → Replies}
    (closed : world.saved = none)
    (handles : ∀ c (after : World), after.saved = none →
      Orderly (fun _ last => last.saved = none) (handler c) after) :
    Orderly (fun _ after => after.saved = none) (authenticate cookies path handler) world := by
  apply ensures_bind.mpr
  apply (orderly_of_plain (plain_of_calm (authMiddleware_calm cookies path))).imp fun _ _ => id
  intro result after continues
  have closedAfter := continues.saved.trans closed
  cases result with
  | error replies => exact closedAfter
  | ok c => exact handles c after closedAfter

theorem protect_orderly {cookies : Cookies} {path : String} {handler : Context → Replies}
    (coherent : CoherentWorld world) (closed : world.saved = none)
    (handles : ∀ c (after : World), Coherent after.db → after.saved = none →
      (∀ project, c.project = some project →
        after.db.KnowsProject project.projectUUID project.projectName) →
      Orderly (fun _ last => last.saved = none) (handler c) after) :
    Orderly (fun _ after => after.saved = none) (protect cookies path handler) world := by
  apply ensures_bind.mpr
  have authenticates : Ends _ _ world := authMiddleware_ends cookies path
  have authenticated := authenticates.and
    (Orderly.coherent (orderly_of_plain (plain_of_calm (authMiddleware_calm cookies path))) coherent)
  apply authenticated.imp fun _ _ => And.right
  rintro (replies | c) after ⟨⟨-, isContext⟩, continues, coherentAfter⟩
  · exact continues.saved.trans closed
  · have closedAfter := continues.saved.trans closed
    apply ensures_bind.mpr
    apply (Orderly.coherent (projectMiddleware_orderly cookies) coherentAfter).imp fun _ _ => id
    rintro (replies | project) last ⟨⟨later, knows⟩, coherentLast⟩
    · apply ensures_bind.mpr
      have unset := (isContext c rfl).2
      refine (handles c last coherentLast.db (later.saved.trans closedAfter) ?_).imp (fun _ _ => id)
        fun _ _ => id
      intro project isProject
      rw [unset] at isProject
      cases isProject
    · apply handles _ last coherentLast.db (later.saved.trans closedAfter)
      intro other isProject
      rw [← Option.some.inj isProject]
      exact knows project rfl

end Routes

/-! ### Passkeys -/

namespace Passkeys

variable {Response : Type}

theorem getOrCreateUser_calm (userName : String) :
    (getOrCreateUser userName).Makes PortalCall.IsCalm := by
  have found : (getUser userName).Makes PortalCall.IsCalm := by
    apply And.intro ⟨trivial, rfl⟩
    intro found
    cases found with
    | error err => trivial
    | ok u =>
        apply And.intro ⟨trivial, rfl⟩
        intro listed
        cases listed <;> trivial
  apply found.bind
  intro result
  cases result with
  | ok existingUser => trivial
  | error err =>
      apply And.intro ⟨rfl, rfl⟩
      intro created
      cases created <;> trivial

theorem userOfSession_calm (id : Bytes) : (userOfSession id).Makes PortalCall.IsCalm := by
  unfold userOfSession
  cases textOf id with
  | none => trivial
  | some userName => exact getOrCreateUser_calm userName

theorem getSession_calm (token : String) : (getSession token).Makes PortalCall.IsCalm := by
  apply And.intro ⟨trivial, rfl⟩
  intro found
  cases found <;> trivial

theorem saveSession_calm (username token : String) (data : SessionData) :
    (saveSession username token data).Makes PortalCall.IsCalm :=
  ⟨⟨trivial, rfl⟩, fun _ => trivial⟩

theorem beginRegistration_calm (settings : Settings) (authn : WebAuthn Response)
    (body : Option String) :
    (beginRegistration settings authn body).Makes PortalCall.IsCalm := by
  cases body with
  | none => trivial
  | some username =>
      apply (getOrCreateUser_calm username).bind
      intro found
      cases found with
      | error err => trivial
      | ok user =>
          apply And.intro ⟨trivial, rfl⟩
          intro challenge
          dsimp only [Program.bind]
          split
          · trivial
          · next started _ =>
              cases settings.sessionExpiry with
              | none => trivial
              | some expDur =>
                  refine ⟨⟨trivial, rfl⟩, fun current => ⟨⟨trivial, rfl⟩, fun t => ?_⟩⟩
                  apply (saveSession_calm _ _ _).bind
                  intro saved
                  cases saved <;> trivial

theorem beginLogin_calm (authn : WebAuthn Response) (body : Option String) :
    (beginLogin authn body).Makes PortalCall.IsCalm := by
  cases body with
  | none => trivial
  | some username =>
      apply (getOrCreateUser_calm username).bind
      intro found
      cases found with
      | error err => trivial
      | ok user =>
          apply And.intro ⟨trivial, rfl⟩
          intro challenge
          dsimp only [Program.bind]
          split
          · trivial
          · next started _ =>
              refine ⟨⟨trivial, rfl⟩, fun t => (saveSession_calm _ _ _).bind fun saved => ?_⟩
              cases saved <;> trivial

/-- A call that fits any rows, admits nobody, changes no file and belongs to no
transaction. -/
structure IsFitting (request : PortalCall) : Prop where
  befits : ∀ before, request.Befits before
  isStep : request.isStep = true
  admits : request.admits = false
  quiet : request.writes = false

theorem isFitting_of_isCalm (request : PortalCall) (calm : request.IsCalm) : IsFitting request :=
  ⟨fun before => (calm.plain.isOrderly before).befits, calm.plain.isStep, calm.plain.admits, calm.quiet⟩

theorem startUserSession_fitting (settings : Settings) (user : PasskeyUser) (success : String) :
    (startUserSession settings user success).Makes IsFitting := by
  refine ⟨⟨fun _ => trivial, rfl, rfl, rfl⟩, fun drawn => ?_⟩
  cases drawn with
  | none => trivial
  | some sessionID =>
      dsimp only [Program.bind]
      split
      · trivial
      · refine ⟨⟨fun _ => trivial, rfl, rfl, rfl⟩, fun current => ⟨⟨fun _ => trivial, rfl, rfl, rfl⟩, fun created => ?_⟩⟩
        cases created with
        | error err => trivial
        | ok _ => exact ⟨⟨fun _ => trivial, rfl, rfl, rfl⟩, fun _ => trivial⟩

theorem finishRegistration_fitting (settings : Settings) (authn : WebAuthn Response) (t : String)
    (response : Response) : (finishRegistration settings authn t response).Makes IsFitting := by
  apply ((getSession_calm t).imp isFitting_of_isCalm).bind
  intro found
  cases found with
  | none => trivial
  | some session =>
      apply ((userOfSession_calm _).imp isFitting_of_isCalm).bind
      intro resolved
      cases resolved with
      | error err => trivial
      | ok user =>
          refine ⟨⟨fun _ => trivial, rfl, rfl, rfl⟩, fun current => ?_⟩
          dsimp only [Program.bind]
          split
          · trivial
          · refine ⟨⟨fun _ => trivial, rfl, rfl, rfl⟩, fun created => ?_⟩
            cases created with
            | error err => trivial
            | ok _ => exact ⟨⟨fun _ => trivial, rfl, rfl, rfl⟩, fun _ => startUserSession_fitting _ _ _⟩

theorem finishLogin_fitting (settings : Settings) (authn : WebAuthn Response) (t : String)
    (response : Response) : (finishLogin settings authn t response).Makes IsFitting := by
  apply ((getSession_calm t).imp isFitting_of_isCalm).bind
  intro found
  cases found with
  | none => trivial
  | some session =>
      apply ((userOfSession_calm _).imp isFitting_of_isCalm).bind
      intro resolved
      cases resolved with
      | error err => trivial
      | ok user =>
          refine ⟨⟨fun _ => trivial, rfl, rfl, rfl⟩, fun current => ?_⟩
          dsimp only [Program.bind]
          split
          · trivial
          · refine ⟨⟨fun _ => trivial, rfl, rfl, rfl⟩, fun updated => ?_⟩
            cases updated with
            | error err => trivial
            | ok _ => exact ⟨⟨fun _ => trivial, rfl, rfl, rfl⟩, fun _ => startUserSession_fitting _ _ _⟩

theorem handle_fitting (settings : Settings) (authn : WebAuthn Response) (cookies : Cookies)
    (route : PasskeyRoute Response) : (route.handle settings authn cookies).Makes IsFitting := by
  cases route with
  | registerStart body => exact (beginRegistration_calm settings authn body).imp isFitting_of_isCalm
  | registerFinish sessionKey response => exact finishRegistration_fitting _ _ _ _
  | loginStart body => exact (beginLogin_calm authn body).imp isFitting_of_isCalm
  | loginFinish sessionKey response => exact finishLogin_fitting _ _ _ _
  | logout =>
      show (logout cookies).Makes IsFitting
      unfold logout
      cases cookies.session with
      | none => trivial
      | some sessionID => exact ⟨⟨fun _ => trivial, rfl, rfl, rfl⟩, fun _ => trivial⟩

theorem ensures_of_fitting {Result : Type} {program : PortalProgram Result} {world : World}
    (fitting : program.Makes IsFitting) :
    Ensures PortalCall.Befits (fun _ after => Continues world after) program world := by
  have ensures : program.Ensures PortalCall.execute
      (fun request after => IsFitting request ∧ Continues world after)
      (fun _ after => Continues world after) world := by
    apply (fitting.along []).ensures _ (.refl world)
    intro request circumstance before isFitting continues
    exact continues.trans
      (PortalCall.continues_execute (isFitting.befits before) isFitting.isStep circumstance)
  exact ensures.imp (fun _ before held => held.1.befits before) fun _ _ => id

end Passkeys

/-! ### Runs -/

section Runs

variable {Response : Type} {settings : Settings} {authn : Passkeys.WebAuthn Response}

theorem serveProject_orderly (cookies : Cookies) (route : ProjectRoute) {world : World}
    (coherent : CoherentWorld world) (closed : world.saved = none) :
    Orderly (fun _ after => after.saved = none)
      (protect cookies route.path fun c => route.handle settings cookies c) world :=
  protect_orderly coherent closed fun _ _ coherentAfter closedAfter knows =>
    route.handle_orderly settings cookies coherentAfter closedAfter knows

theorem serveUser_orderly (cookies : Cookies) (route : UserRoute) {world : World}
    (closed : world.saved = none) :
    Orderly (fun _ after => after.saved = none)
      (authenticate cookies route.path fun c => route.handle settings cookies c) world :=
  authenticate_orderly closed fun _ _ closedAfter => route.handle_orderly settings cookies closedAfter

theorem serve_befits (request : Request Response) {world : World} (coherent : CoherentWorld world)
    (closed : world.saved = none) :
    Ensures PortalCall.Befits (fun _ after => after.saved = none) (serve settings authn request)
      world := by
  obtain ⟨cookies, route⟩ := request
  have befits : ∀ {program : Replies}, Orderly (fun _ after => after.saved = none) program world →
      Ensures PortalCall.Befits (fun _ after => after.saved = none) program world :=
    fun orderly => orderly.imp (fun _ _ isOrderly => isOrderly.befits) fun _ _ => id
  cases route with
  | project route => exact befits (serveProject_orderly cookies route coherent closed)
  | user route => exact befits (serveUser_orderly cookies route closed)
  | passkey route =>
      exact (Passkeys.ensures_of_fitting (Passkeys.handle_fitting settings authn cookies route)).imp
        (fun _ _ => id) fun _ _ continues => continues.saved.trans closed

/-- No transaction is open, and the rows belong together. -/
structure Settled (world : World) : Prop where
  coherent : Coherent world.db
  closed : world.saved = none

theorem Settled.coherentWorld {world : World} (settled : Settled world) : CoherentWorld world where
  db := settled.coherent
  saved db isSaved := by
    rw [settled.closed] at isSaved
    cases isSaved

/-- Serving a request, the database is coherent at every call and afterwards. -/
theorem Settled.serve {world : World} (settled : Settled world) (served : Served Response) :
    (∀ step ∈ served.steps settings authn world, Coherent step.2.2.db) ∧
      Settled (served.run settings authn world).2 := by
  have coherent := settled.coherentWorld
  have befits : Ensures _ _ (Portal.serve settings authn served.request) world :=
    serve_befits served.request coherent settled.closed
  have ensures := Ensures.keeps befits
    (fun _ circumstance _ befits held => held.execute befits circumstance) coherent
  constructor
  · intro step member
    exact (ensures.steps served.circumstances step member).2.db
  · have ends := ensures.ends served.circumstances
    exact ⟨ends.2.db, ends.1⟩

theorem Settled.of_reached {first world : World} (settled : Settled first)
    (reached : Reached settings authn (fun _ _ => True) first world) : Settled world := by
  induction reached with
  | start => exact settled
  | next before _ ih => exact (ih.serve _).2

/-- In every run from a coherent database, whatever fails while its requests
are served, the database is coherent at every call. -/
theorem rows_coherent {first world : World} (settled : Settled first)
    (reached : Reached settings authn (fun _ _ => True) first world) (served : Served Response) :
    ∀ step ∈ served.steps settings authn world, Coherent step.2.2.db :=
  ((settled.of_reached reached).serve served).1

theorem userWorld_settled : Settled userWorld := by
  refine ⟨⟨?_, nofun, nofun, nofun, nofun, nofun, ?_, nofun⟩, rfl⟩
  · intro row member
    obtain rfl : row = ⟨[97], "a", "a"⟩ := List.mem_singleton.mp member
    decide +kernel
  · intro row member
    obtain rfl : row = ⟨"s", [97], 10⟩ := List.mem_singleton.mp member
    exact ⟨⟨[97], "a", "a"⟩, List.mem_cons_self, rfl⟩

/-- A project is created, and then its owner steps down. -/
theorem rows_coherent_stepDown :
    (stepDown.run exampleSettings refusingAuthn afterShop).2.db.access.rows =
        [⟨[97], .copy [], .viewer⟩] ∧
      ∀ step ∈ stepDown.steps exampleSettings refusingAuthn afterShop, Coherent step.2.2.db :=
  ⟨by decide +kernel, rows_coherent userWorld_settled (.next .start trivial) stepDown⟩

end Runs

end Portal

end Litefunctions
