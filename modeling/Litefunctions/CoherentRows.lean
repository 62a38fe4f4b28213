import Litefunctions.CreatedPaths
import Litefunctions.PortalPasskeys

/-!
# Rows that belong together

No statement of the portal removes a user or a project, and the deletion of a
function takes its endpoints along.  What else the rows have in common is the
work of the handlers: an endpoint is stored for a function of its own project
and is named after both, the language of a function is the one of its file, and
the id of a user is the name of the user.
-/

namespace Litefunctions

namespace Portal

open Program

namespace Database

def HasUser (db : Database) (userID : Bytes) : Prop :=
  ∃ user ∈ db.users.rows, user.id = userID

def HasProject (db : Database) (projectID : Uuid) : Prop :=
  ∃ project ∈ db.projects.rows, project.id = projectID

/-- An endpoint of this name may be stored for the function: both are of the
project, and the name is made of the names of the project and of the function,
or of its file. -/
def NamesFunction (db : Database) (projectID : Uuid) (name : String) (functionID : Uuid) : Prop :=
  ∃ project ∈ db.projects.rows, project.id = projectID ∧
    ∃ row ∈ db.functions.rows, row.id = functionID ∧ row.projectID = projectID ∧
      (name = s!"/{project.name}/{row.name}" ∨
        name = s!"/{project.name}/{FunctionHandlers.nameOf row.path}")

theorem hasUser_of_isSome {db : Database} {userID : Bytes} (isUser : ¬ (db.user? userID).isNone) :
    db.HasUser userID := by
  obtain ⟨user, found⟩ := Option.ne_none_iff_exists'.mp (by simpa using isUser)
  obtain ⟨member, isID⟩ := Table.find?_some found
  exact ⟨user, member, of_decide_eq_true isID⟩

theorem hasProject_of_isSome {db : Database} {projectID : Uuid}
    (isProject : ¬ (db.project? projectID).isNone) : db.HasProject projectID := by
  obtain ⟨project, found⟩ := Option.ne_none_iff_exists'.mp (by simpa using isProject)
  obtain ⟨member, isID⟩ := Table.find?_some found
  exact ⟨project, member, of_decide_eq_true isID⟩

end Database

/-- No row refers to a missing one, and the rows agree with each other. -/
structure Coherent (db : Database) : Prop where
  users : ∀ row ∈ db.users.rows, row.id = Passkeys.bytesOf row.name
  projects : ∀ row ∈ db.projects.rows, db.HasUser row.createdBy
  access : ∀ row ∈ db.access.rows, db.HasUser row.userID ∧ db.HasProject row.projectID
  invites : ∀ row ∈ db.invites.rows, db.HasProject row.projectID ∧ db.HasUser row.createdBy
  functions : ∀ row ∈ db.functions.rows, db.HasProject row.projectID ∧ db.HasUser row.createdBy ∧
    FunctionHandlers.extLang (FunctionHandlers.ext row.path) = some row.language
  endpoints : ∀ row ∈ db.endpoints.rows, db.NamesFunction row.projectID row.name row.functionID ∧
    EndpointQuery.validScope row.scope = true
  userSessions : ∀ row ∈ db.userSessions.rows, db.HasUser row.userID
  credentials : ∀ row ∈ db.credentials.rows, db.HasUser row.userID

theorem coherent_empty : Coherent .empty := by
  constructor <;> intro row member <;> cases member

/-! ### What a statement changes -/

/-- The statement fits the rows that there are. -/
def Query.Befits (db : Database) : Query → Prop
  | auth (.createUser id name _) => id = Passkeys.bytesOf name
  | function (.createFunction _ _ language path _ _) =>
      FunctionHandlers.extLang (FunctionHandlers.ext path) = some language
  | function (.updateFunctionPath id _) => id = none
  | function (.updateFunctionIsAsync id _) => id = none
  | endpoint (.createEndpoint projectID name _ _ functionID) =>
      db.NamesFunction projectID name functionID
  | _ => True

/-- The statement deletes a function. -/
def Query.deletes : Query → Bool
  | function (.deleteFunction _) => true
  | _ => false

/-- The change of one table by a statement that fits and deletes no function. -/
inductive FittingChange (db : Database) : Database → Prop
  | nothing : FittingChange db db
  | addUser {row : User} {users} (inserted : db.users.insert row = some users)
      (named : row.id = Passkeys.bytesOf row.name) : FittingChange db { db with users }
  | addProject {row : Project} {projects} (inserted : db.projects.insert row = some projects)
      (creator : db.HasUser row.createdBy) : FittingChange db { db with projects }
  | access {access : Table ProjectAccess ProjectAccess.conflicts}
      (refers : ∀ row ∈ access.rows, (∃ old ∈ db.access.rows,
          old.userID = row.userID ∧ old.projectID = row.projectID) ∨
        db.HasUser row.userID ∧ db.HasProject row.projectID) : FittingChange db { db with access }
  | invites {invites : Table ProjectInvite ProjectInvite.conflicts}
      (refers : ∀ row ∈ invites.rows, (∃ old ∈ db.invites.rows,
          old.projectID = row.projectID ∧ old.createdBy = row.createdBy) ∨
        db.HasProject row.projectID ∧ db.HasUser row.createdBy) : FittingChange db { db with invites }
  | addFunction {row : FunctionRow} {functions}
      (inserted : db.functions.insert row = some functions) (project : db.HasProject row.projectID)
      (creator : db.HasUser row.createdBy)
      (language : FunctionHandlers.extLang (FunctionHandlers.ext row.path) = some row.language) :
      FittingChange db { db with functions }
  | endpoints {endpoints : Table Endpoint Endpoint.conflicts}
      (refers : ∀ row ∈ endpoints.rows, (∃ old ∈ db.endpoints.rows,
          old.projectID = row.projectID ∧ old.name = row.name ∧ old.functionID = row.functionID ∧
            (old.scope = row.scope ∨ EndpointQuery.validScope row.scope = true)) ∨
        db.NamesFunction row.projectID row.name row.functionID ∧
          EndpointQuery.validScope row.scope = true) : FittingChange db { db with endpoints }
  | userSessions {userSessions : Table UserSession UserSession.conflicts}
      (refers : ∀ row ∈ userSessions.rows, row ∈ db.userSessions.rows ∨ db.HasUser row.userID) :
      FittingChange db { db with userSessions }
  | credentials {credentials : Table Credential Credential.conflicts}
      (refers : ∀ row ∈ credentials.rows, (∃ old ∈ db.credentials.rows,
        old.userID = row.userID) ∨ db.HasUser row.userID) : FittingChange db { db with credentials }
  | webauthnSessions {webauthnSessions : Table WebauthnSession WebauthnSession.conflicts} :
      FittingChange db { db with webauthnSessions }

section Changes

variable {db : Database} (moment : Moment)

theorem fittingChange_insertAccess (row : ProjectAccess) :
    FittingChange db (AccessQuery.insertAccess row db).2 := by
  unfold AccessQuery.insertAccess
  split
  · exact .nothing
  · next refers =>
      obtain ⟨isUser, isProject⟩ := not_or.mp refers
      split
      · exact .nothing
      · next access inserted =>
          refine .access fun other member => ?_
          rcases (Table.mem_insert inserted).mp member with old | rfl
          · exact .inl ⟨other, old, rfl, rfl⟩
          · exact .inr ⟨Database.hasUser_of_isSome isUser, Database.hasProject_of_isSome isProject⟩

theorem fittingChange_setRole (userID : Bytes) (projectID : Uuid) (role : Role) :
    FittingChange db (AccessQuery.setRole userID projectID role db).2 := by
  unfold AccessQuery.setRole
  split
  · exact .nothing
  · next access modified =>
      refine .access fun row member => ?_
      rw [Table.rows_modify modified] at member
      obtain ⟨old, oldMember, rfl⟩ := List.mem_map.mp member
      refine .inl ⟨old, oldMember, ?_⟩
      split <;> exact ⟨rfl, rfl⟩

theorem AccessQuery.fittingChange (query : AccessQuery) :
    FittingChange db (query.execute moment db).2 := by
  cases query with
  | addProjectOwner userID projectID =>
      simp only [execute]
      split
      · exact fittingChange_insertAccess _
      · exact fittingChange_setRole _ _ _
  | updateUserProjectRole userID projectID role =>
      simp only [execute]
      repeat' split
      all_goals first | exact .nothing | exact fittingChange_setRole _ _ _
  | revokeProjectAccess projectID userID =>
      cases userID with
      | none => exact .nothing
      | some userID =>
          exact .access fun row member => .inl ⟨row, (Table.mem_remove.mp member).1, rfl, rfl⟩
  | createProjectInvite projectID inviteCode createdBy expiresAt =>
      simp only [execute]
      split
      · exact .nothing
      · next refers =>
          obtain ⟨isProject, others⟩ := not_or.mp refers
          obtain ⟨isUser, -⟩ := not_or.mp others
          split
          · exact .nothing
          · next invites inserted =>
              refine .invites fun row member => ?_
              rcases (Table.mem_insert inserted).mp member with old | rfl
              · exact .inl ⟨row, old, rfl, rfl⟩
              · exact .inr ⟨Database.hasProject_of_isSome isProject, Database.hasUser_of_isSome isUser⟩
  | addViewerToProject userID projectID =>
      simp only [execute]
      split
      · exact fittingChange_insertAccess _
      · exact .nothing
  | markInviteUsed id =>
      simp only [execute]
      split
      · exact .nothing
      · next invites modified =>
          refine .invites fun row member => ?_
          rw [Table.rows_modify modified] at member
          obtain ⟨old, oldMember, rfl⟩ := List.mem_map.mp member
          refine .inl ⟨old, oldMember, ?_⟩
          split <;> exact ⟨rfl, rfl⟩
  | _ => exact .nothing

theorem ProjectQuery.fittingChange (query : ProjectQuery) :
    FittingChange db (query.execute moment db).2 := by
  cases query with
  | createProject name createdBy =>
      simp only [execute]
      split
      · exact .nothing
      · next isUser =>
          split
          · exact .nothing
          · next projects inserted => exact .addProject inserted (Database.hasUser_of_isSome isUser)
  | getProjectByID id => exact .nothing

theorem FunctionQuery.fittingChange (query : FunctionQuery)
    (befits : (Query.function query).Befits db) (keeps : (Query.function query).deletes = false) :
    FittingChange db (query.execute moment db).2 := by
  cases query with
  | createFunction projectID name language path isAsync createdBy =>
      simp only [execute]
      split
      · exact .nothing
      · next refers =>
          obtain ⟨isProject, isUser⟩ := not_or.mp refers
          split
          · exact .nothing
          · next functions inserted =>
              exact .addFunction inserted (Database.hasProject_of_isSome isProject)
                (Database.hasUser_of_isSome isUser) befits
  | updateFunctionPath id path =>
      obtain rfl : id = none := befits
      exact .nothing
  | updateFunctionIsAsync id isAsync =>
      obtain rfl : id = none := befits
      exact .nothing
  | deleteFunction id => cases keeps
  | _ => exact .nothing

theorem EndpointQuery.fittingChange (query : EndpointQuery)
    (befits : (Query.endpoint query).Befits db) : FittingChange db (query.execute moment db).2 := by
  cases query with
  | createEndpoint projectID name method scope functionID =>
      simp only [execute]
      split
      · exact .nothing
      · next refers =>
          have isScope : validScope scope = true := by
            simpa using (not_or.mp (not_or.mp refers).2).2
          split
          · exact .nothing
          · next endpoints inserted =>
              refine .endpoints fun row member => ?_
              rcases (Table.mem_insert inserted).mp member with old | rfl
              · exact .inl ⟨row, old, rfl, rfl, rfl, .inl rfl⟩
              · exact .inr ⟨befits, isScope⟩
  | updateEndpointMethodScope id method scope =>
      simp only [execute]
      repeat' split
      · exact .nothing
      · exact .nothing
      · exact .nothing
      · next isScope _ endpoints modified =>
          refine .endpoints fun row member => ?_
          rw [Table.rows_modify modified] at member
          obtain ⟨old, oldMember, rfl⟩ := List.mem_map.mp member
          split
          · exact .inl ⟨old, oldMember, rfl, rfl, rfl, .inr (by simpa using isScope)⟩
          · exact .inl ⟨old, oldMember, rfl, rfl, rfl, .inl rfl⟩
  | _ => exact .nothing

theorem AuthQuery.fittingChange (query : AuthQuery) (befits : (Query.auth query).Befits db) :
    FittingChange db (query.execute moment db).2 := by
  cases query with
  | createUser id name displayName =>
      simp only [execute]
      repeat' split
      · exact .nothing
      · exact .nothing
      · next users inserted => exact .addUser inserted befits
  | createCredential credential =>
      simp only [execute]
      split
      · exact .nothing
      · next isUser =>
          split
          · exact .nothing
          · next credentials inserted =>
              refine .credentials fun row member => ?_
              rcases (Table.mem_insert inserted).mp member with old | rfl
              · exact .inl ⟨row, old, rfl⟩
              · exact .inr (Database.hasUser_of_isSome isUser)
  | updateCredential credential =>
      simp only [execute]
      split
      · exact .nothing
      · next credentials modified =>
          refine .credentials fun row member => ?_
          rw [Table.rows_modify modified] at member
          obtain ⟨old, oldMember, rfl⟩ := List.mem_map.mp member
          refine .inl ⟨old, oldMember, ?_⟩
          split <;> rfl
  | saveSession session =>
      simp only [execute]
      split
      · exact .nothing
      · exact .webauthnSessions
  | deleteSession sessionID => exact .webauthnSessions
  | createUserSession sessionID userID expiresAt =>
      simp only [execute]
      split
      · exact .nothing
      · next isUser =>
          split
          · exact .nothing
          · next userSessions inserted =>
              refine .userSessions fun row member => ?_
              rcases (Table.mem_insert inserted).mp member with old | rfl
              · exact .inl old
              · exact .inr (Database.hasUser_of_isSome isUser)
  | deleteUserSession sessionID =>
      exact .userSessions fun row member => .inl (Table.mem_remove.mp member).1
  | _ => exact .nothing

theorem Query.fittingChange {statement : Query} (befits : statement.Befits db)
    (keeps : statement.deletes = false) : FittingChange db (statement.execute moment db).2 := by
  cases statement with
  | access query => exact query.fittingChange moment
  | project query => exact query.fittingChange moment
  | function query => exact query.fittingChange moment befits keeps
  | endpoint query => exact query.fittingChange moment befits
  | auth query => exact query.fittingChange moment befits

end Changes

/-! ### Coherent rows stay coherent -/

section Kept

variable {db after : Database}

/-- Users, projects and functions are still there. -/
structure KeepsNamed (db after : Database) : Prop where
  users : ∀ row ∈ db.users.rows, row ∈ after.users.rows
  projects : ∀ row ∈ db.projects.rows, row ∈ after.projects.rows
  functions : ∀ row ∈ db.functions.rows, row ∈ after.functions.rows

theorem KeepsNamed.refl (db : Database) : KeepsNamed db db :=
  ⟨fun _ => id, fun _ => id, fun _ => id⟩

theorem KeepsNamed.trans {last : Database} (early : KeepsNamed db after)
    (late : KeepsNamed after last) : KeepsNamed db last where
  users row member := late.users row (early.users row member)
  projects row member := late.projects row (early.projects row member)
  functions row member := late.functions row (early.functions row member)

theorem KeepsNamed.hasUser (keeps : KeepsNamed db after) {userID : Bytes}
    (isUser : db.HasUser userID) : after.HasUser userID :=
  isUser.imp fun user held => ⟨keeps.users user held.1, held.2⟩

theorem KeepsNamed.hasProject (keeps : KeepsNamed db after) {projectID : Uuid}
    (isProject : db.HasProject projectID) : after.HasProject projectID :=
  isProject.imp fun project held => ⟨keeps.projects project held.1, held.2⟩

theorem KeepsNamed.namesFunction (keeps : KeepsNamed db after) {projectID functionID : Uuid}
    {name : String} (names : db.NamesFunction projectID name functionID) :
    after.NamesFunction projectID name functionID := by
  obtain ⟨project, member, isProject, row, rowMember, isRow⟩ := names
  exact ⟨project, keeps.projects project member, isProject, row, keeps.functions row rowMember, isRow⟩

/-- What only adds to the named tables keeps what refers to them. -/
theorem Coherent.of_keepsNamed (coherent : Coherent db) (keeps : KeepsNamed db after)
    (users : ∀ row ∈ after.users.rows, row.id = Passkeys.bytesOf row.name)
    (projects : ∀ row ∈ after.projects.rows, row ∈ db.projects.rows ∨ db.HasUser row.createdBy)
    (functions : ∀ row ∈ after.functions.rows, row ∈ db.functions.rows ∨
      db.HasProject row.projectID ∧ db.HasUser row.createdBy ∧
        FunctionHandlers.extLang (FunctionHandlers.ext row.path) = some row.language)
    (others : after = { db with
      users := after.users, projects := after.projects, functions := after.functions }) :
    Coherent after := by
  have sameAccess : after.access = db.access := by rw [others]
  have sameInvites : after.invites = db.invites := by rw [others]
  have sameEndpoints : after.endpoints = db.endpoints := by rw [others]
  have sameSessions : after.userSessions = db.userSessions := by rw [others]
  have sameCredentials : after.credentials = db.credentials := by rw [others]
  refine ⟨users, ?_, ?_, ?_, ?_, ?_, ?_, ?_⟩
  · intro row member
    exact keeps.hasUser ((projects row member).elim (coherent.projects row) id)
  · intro row member
    have refers := coherent.access row (sameAccess ▸ member)
    exact ⟨keeps.hasUser refers.1, keeps.hasProject refers.2⟩
  · intro row member
    have refers := coherent.invites row (sameInvites ▸ member)
    exact ⟨keeps.hasProject refers.1, keeps.hasUser refers.2⟩
  · intro row member
    have ⟨isProject, isUser, language⟩ := (functions row member).elim (coherent.functions row) id
    exact ⟨keeps.hasProject isProject, keeps.hasUser isUser, language⟩
  · intro row member
    have ⟨names, isScope⟩ := coherent.endpoints row (sameEndpoints ▸ member)
    exact ⟨keeps.namesFunction names, isScope⟩
  · intro row member
    exact keeps.hasUser (coherent.userSessions row (sameSessions ▸ member))
  · intro row member
    exact keeps.hasUser (coherent.credentials row (sameCredentials ▸ member))

theorem FittingChange.keepsNamed (change : FittingChange db after) : KeepsNamed db after := by
  cases change with
  | addUser inserted named =>
      exact ⟨fun row member => (Table.mem_insert inserted).mpr (.inl member), fun _ => id, fun _ => id⟩
  | addProject inserted creator =>
      exact ⟨fun _ => id, fun row member => (Table.mem_insert inserted).mpr (.inl member), fun _ => id⟩
  | addFunction inserted project creator language =>
      exact ⟨fun _ => id, fun _ => id, fun row member => (Table.mem_insert inserted).mpr (.inl member)⟩
  | _ => exact ⟨fun _ => id, fun _ => id, fun _ => id⟩

theorem Coherent.removeFunction (coherent : Coherent db) (id : Uuid) :
    Coherent { db with
      functions := db.functions.remove (·.id = id)
      endpoints := db.endpoints.remove (·.functionID = id) } where
  users := coherent.users
  projects := coherent.projects
  access := coherent.access
  invites := coherent.invites
  functions row member := coherent.functions row (Table.mem_remove.mp member).1
  endpoints row member := by
    obtain ⟨stored, others⟩ := Table.mem_remove.mp member
    obtain ⟨⟨project, isMember, isProject, function, isFunction, sameID, names⟩, isScope⟩ :=
      coherent.endpoints row stored
    -- the function of an endpoint that is left is not the one removed
    have isLeft : function ∈ (db.functions.remove (·.id = id)).rows :=
      Table.mem_remove.mpr ⟨isFunction, by rw [sameID]; exact others⟩
    exact ⟨⟨project, isMember, isProject, function, isLeft, sameID, names⟩, isScope⟩
  userSessions := coherent.userSessions
  credentials := coherent.credentials

theorem FittingChange.coherent (change : FittingChange db after) (coherent : Coherent db) :
    Coherent after := by
  have keeps := change.keepsNamed
  cases change with
  | nothing => exact coherent
  | addUser inserted named =>
      refine coherent.of_keepsNamed keeps (fun row member => ?_) (fun _ => .inl)
        (fun _ => .inl) rfl
      rcases (Table.mem_insert inserted).mp member with old | rfl
      · exact coherent.users row old
      · exact named
  | addProject inserted creator =>
      refine coherent.of_keepsNamed keeps coherent.users (fun row member => ?_)
        (fun _ => .inl) rfl
      rcases (Table.mem_insert inserted).mp member with old | rfl
      · exact .inl old
      · exact .inr creator
  | access refers =>
      refine { coherent with access := fun row member => ?_ }
      rcases refers row member with ⟨old, oldMember, sameUser, sameProject⟩ | refers
      · have held := coherent.access old oldMember
        rwa [sameUser, sameProject] at held
      · exact refers
  | invites refers =>
      refine { coherent with invites := fun row member => ?_ }
      rcases refers row member with ⟨old, oldMember, sameProject, sameCreator⟩ | refers
      · have held := coherent.invites old oldMember
        rwa [sameProject, sameCreator] at held
      · exact refers
  | addFunction inserted project creator language =>
      refine coherent.of_keepsNamed keeps coherent.users (fun _ => .inl)
        (fun row member => ?_) rfl
      rcases (Table.mem_insert inserted).mp member with old | rfl
      · exact .inl old
      · exact .inr ⟨project, creator, language⟩
  | endpoints refers =>
      refine { coherent with endpoints := fun row member => ?_ }
      rcases refers row member with
        ⟨old, oldMember, sameProject, sameName, sameFunction, sameScope | isScope⟩ | fits
      · have held := coherent.endpoints old oldMember
        rwa [sameProject, sameName, sameFunction, sameScope] at held
      · have held := (coherent.endpoints old oldMember).1
        rw [sameProject, sameName, sameFunction] at held
        exact ⟨held, isScope⟩
      · exact fits
  | userSessions refers =>
      refine { coherent with userSessions := fun row member => ?_ }
      exact (refers row member).elim (coherent.userSessions row) id
  | credentials refers =>
      refine { coherent with credentials := fun row member => ?_ }
      rcases refers row member with ⟨old, oldMember, sameUser⟩ | isUser
      · exact sameUser ▸ coherent.credentials old oldMember
      · exact isUser
  | webauthnSessions => exact { coherent with }

theorem Query.coherent_execute {statement : Query} (befits : statement.Befits db)
    (coherent : Coherent db) (moment : Moment) : Coherent (statement.execute moment db).2 := by
  cases isDeletion : statement.deletes with
  | false => exact (fittingChange moment befits isDeletion).coherent coherent
  | true =>
      unfold Query.deletes at isDeletion
      split at isDeletion
      · next id =>
          cases id with
          | none => exact coherent
          | some id => exact coherent.removeFunction id
      · cases isDeletion

end Kept

/-! ### Calls -/

/-- A statement among the calls fits the rows that there are. -/
def PortalCall.Befits : PortalCall → World → Prop
  | query statement, before => statement.Befits before.db
  | _, _ => True

/-- The database is coherent, also if the open transaction is rolled back. -/
structure CoherentWorld (world : World) : Prop where
  db : Coherent world.db
  saved : ∀ db ∈ world.saved, Coherent db

theorem CoherentWorld.rolledBack {world : World} (coherent : CoherentWorld world) :
    Coherent (world.saved.getD world.db) := by
  cases isSaved : world.saved with
  | none => exact coherent.db
  | some db => exact coherent.saved db isSaved

theorem CoherentWorld.of_closed {world : World} (coherent : Coherent world.db)
    (closed : world.saved = none) : CoherentWorld world :=
  ⟨coherent, fun db isSaved => by rw [closed] at isSaved; cases isSaved⟩

theorem CoherentWorld.execute {request : PortalCall} {world : World} (befits : request.Befits world)
    (coherent : CoherentWorld world) (circumstance : PortalCall.Circumstance) :
    CoherentWorld (PortalCall.execute request circumstance world).2 := by
  cases request with
  | query statement =>
      have executed := Query.coherent_execute befits coherent.db
        ⟨world.clock + circumstance.elapsed, circumstance.fresh⟩
      simp only [PortalCall.execute]
      cases circumstance.fault with
      | refused => exact ⟨coherent.db, coherent.saved⟩
      | none | lost => exact ⟨executed, coherent.saved⟩
  | begin =>
      simp only [PortalCall.execute]
      cases circumstance.fault with
      | none =>
          refine ⟨coherent.db, fun db isSaved => ?_⟩
          rw [← Option.some.inj isSaved]
          exact coherent.db
      | refused | lost => exact ⟨coherent.db, coherent.saved⟩
  | commit =>
      simp only [PortalCall.execute]
      cases circumstance.fault with
      | refused => exact .of_closed coherent.rolledBack rfl
      | none | lost => exact .of_closed coherent.db rfl
  | rollback => exact .of_closed coherent.rolledBack rfl
  | createFunctionCRD req =>
      simp only [PortalCall.execute]
      cases circumstance.fault <;> exact ⟨coherent.db, coherent.saved⟩
  | _ => exact ⟨coherent.db, coherent.saved⟩

end Portal

end Litefunctions
