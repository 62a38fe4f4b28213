import Litefunctions.PortalCalls

/-!
# The projects that a call touches

A call touches a project when it reads or changes its functions, endpoints,
access rows or invites, or works on its repository.  A statement about the
rows of a project touches that project, also where it has none; a statement
about the row of an id touches the project of that row.  The rows of every
other project are the same after the call.
-/

namespace Litefunctions

namespace Portal

/-! ### Touched projects -/

/-- The projects of the functions that endpoints of a project name. -/
def Database.joinedProjects (db : Database) (projectID : Uuid) : List Uuid :=
  (db.functions.rows.filter fun function => db.endpoints.rows.any fun endpoint =>
    endpoint.projectID = projectID ∧ endpoint.functionID = function.id).map (·.projectID)

/-- The project of the function with this id. -/
def Database.functionProject (db : Database) (id : Uuid) : List Uuid :=
  (db.functions.rows.filter (·.id = id)).map (·.projectID)

def Database.endpointProject (db : Database) (id : Uuid) : List Uuid :=
  (db.endpoints.rows.filter (·.id = id)).map (·.projectID)

/-- The projects of the endpoints that are deleted with a function. -/
def Database.cascadedProjects (db : Database) (functionID : Uuid) : List Uuid :=
  (db.endpoints.rows.filter (·.functionID = functionID)).map (·.projectID)

def Database.namedProjects (db : Database) (name : String) : List Uuid :=
  (db.projects.rows.filter (·.name = name)).map (·.id)

def AccessQuery.touches (db : Database) : AccessQuery → List Uuid
  | addProjectOwner _ projectID => [projectID]
  | listProjectsForUser userID => (db.access.rows.filter (·.userID = userID)).map (·.projectID)
  | getUserProjectRole userID projectID =>
      (db.access.rows.filter fun row => row.userID = userID ∧ row.projectID = projectID).map
        (·.projectID)
  | updateUserProjectRole _ projectID _ => [projectID]
  | revokeProjectAccess projectID _ => [projectID]
  | createProjectInvite projectID _ _ _ => [projectID]
  | getValidInviteByCode inviteCode =>
      (db.invites.rows.filter (·.inviteCode = inviteCode)).map (·.projectID)
  | addViewerToProject _ projectID => [projectID]
  | markInviteUsed id => (db.invites.rows.filter (·.id = id)).map (·.projectID)
  | listUsersForProject projectID => [projectID]

def FunctionQuery.touches (db : Database) : FunctionQuery → List Uuid
  | createFunction projectID _ _ _ _ _ => [projectID]
  | getFunctionByID id | updateFunctionPath id _ | updateFunctionIsAsync id _ =>
      id.toList.flatMap db.functionProject
  | listFunctionsForProject projectID => [projectID]
  | deleteFunction id =>
      id.toList.flatMap fun id => db.functionProject id ++ db.cascadedProjects id
  | listFunctionsSearchPaged projectID _ _ _ => [projectID]

def EndpointQuery.touches (db : Database) : EndpointQuery → List Uuid
  | createEndpoint projectID _ _ _ functionID => projectID :: db.functionProject functionID
  | listEndpointsForProject projectID | listEndpointsSearch projectID _ _ _ =>
      projectID :: db.joinedProjects projectID
  | getEndpointByID id | updateEndpointMethodScope id _ _ => db.endpointProject id

def Query.touches (db : Database) : Query → List Uuid
  | access query => query.touches db
  | project _ => []
  | function query => query.touches db
  | endpoint query => query.touches db
  | auth _ => []

/-- The projects that a call touches. -/
def PortalCall.touches (db : Database) : PortalCall → List Uuid
  | query statement => statement.touches db
  | repo project _ | vcs project _ => db.namedProjects project
  | createFunctionCRD req => db.namedProjects req.project
  | _ => []

/-! ### Rows of a project -/

/-- What the database holds of a project. -/
structure ProjectRows where
  access : List ProjectAccess
  invites : List ProjectInvite
  functions : List FunctionRow
  endpoints : List Endpoint

def Database.rowsOf (db : Database) (projectID : Uuid) : ProjectRows where
  access := db.access.rows.filter (·.projectID = projectID)
  invites := db.invites.rows.filter (·.projectID = projectID)
  functions := db.functions.rows.filter (·.projectID = projectID)
  endpoints := db.endpoints.rows.filter (·.projectID = projectID)

section Untouched

variable {db : Database} {projectID : Uuid} {moment : Moment}

theorem rowsOf_insertAccess {row : ProjectAccess} (other : row.projectID ≠ projectID) :
    (AccessQuery.insertAccess row db).2.rowsOf projectID = db.rowsOf projectID := by
  unfold AccessQuery.insertAccess
  split
  · rfl
  · split
    · rfl
    · next access inserted =>
        have kept := Table.filter_insert (·.projectID = projectID) inserted (by simpa)
        simp only [Database.rowsOf, kept]

theorem rowsOf_setRole {userID : Bytes} {changed : Uuid} {role : Role}
    (other : changed ≠ projectID) :
    (AccessQuery.setRole userID changed role db).2.rowsOf projectID = db.rowsOf projectID := by
  unfold AccessQuery.setRole
  split
  · rfl
  · next access modified =>
      have kept := Table.filter_modify (·.projectID = projectID) modified (by
        intro row member selected
        obtain ⟨-, rfl⟩ := of_decide_eq_true selected
        simpa using other)
      simp only [Database.rowsOf, kept]

theorem AccessQuery.rowsOf_execute (query : AccessQuery)
    (untouched : projectID ∉ query.touches db) :
    (query.execute moment db).2.rowsOf projectID = db.rowsOf projectID := by
  cases query with
  | addProjectOwner userID changed =>
      have other : changed ≠ projectID := by simpa [touches, eq_comm] using untouched
      simp only [execute]
      split
      · exact rowsOf_insertAccess other
      · exact rowsOf_setRole other
  | listProjectsForUser userID => rfl
  | getUserProjectRole userID read => rfl
  | updateUserProjectRole userID changed role =>
      have other : changed ≠ projectID := by simpa [touches, eq_comm] using untouched
      simp only [execute]
      repeat' split
      all_goals first | rfl | exact rowsOf_setRole other
  | revokeProjectAccess changed userID =>
      have other : changed ≠ projectID := by simpa [touches, eq_comm] using untouched
      simp only [execute]
      split
      · rfl
      · next userID =>
          have kept := Table.filter_remove db.access (·.projectID = projectID)
            (fun row => row.projectID = changed ∧ row.userID = userID ∧ row.role ≠ .owner)
            (by
              intro row member selected
              obtain ⟨rfl, -⟩ := of_decide_eq_true selected
              simpa using other)
          simp only [Database.rowsOf, kept]
  | createProjectInvite changed inviteCode createdBy expiresAt =>
      have other : changed ≠ projectID := by simpa [touches, eq_comm] using untouched
      simp only [execute]
      split
      · rfl
      · split
        · rfl
        · next invites inserted =>
            have kept := Table.filter_insert (·.projectID = projectID) inserted
              (by simpa)
            simp only [Database.rowsOf, kept]
  | getValidInviteByCode inviteCode => rfl
  | addViewerToProject userID changed =>
      have other : changed ≠ projectID := by simpa [touches, eq_comm] using untouched
      simp only [execute]
      split
      · exact rowsOf_insertAccess other
      · rfl
  | markInviteUsed id =>
      simp only [execute]
      split
      · rfl
      · next invites modified =>
          have kept := Table.filter_modify (·.projectID = projectID) modified (by
            intro row member selected
            have other : row.projectID ≠ projectID := by
              rintro rfl
              exact untouched (List.mem_map.mpr
                ⟨row, List.mem_filter.mpr ⟨member, selected⟩, rfl⟩)
            simpa using other)
          simp only [Database.rowsOf, kept]
  | listUsersForProject read => rfl

theorem rowsOf_change {id : Option Uuid} {edit : FunctionRow → FunctionRow}
    (untouched : projectID ∉ id.toList.flatMap db.functionProject)
    (sameProject : ∀ row, (edit row).projectID = row.projectID) :
    (FunctionQuery.change id edit db).2.rowsOf projectID = db.rowsOf projectID := by
  unfold FunctionQuery.change
  split
  · rfl
  · next found foundEq =>
      obtain ⟨id, rfl, findEq⟩ := Option.bind_eq_some_iff.mp foundEq
      have foundID : found.id = id := of_decide_eq_true (Table.find?_some findEq).2
      split
      · rfl
      · next functions modified =>
          have kept := Table.filter_modify (·.projectID = projectID) modified (by
            intro row member selected
            have other : row.projectID ≠ projectID := by
              rintro rfl
              refine untouched (List.mem_flatMap.mpr ⟨id, by simp, List.mem_map.mpr ⟨row, ?_, rfl⟩⟩)
              rw [foundID] at selected
              exact List.mem_filter.mpr ⟨member, selected⟩
            simpa [sameProject] using other)
          simp only [Database.rowsOf, kept]

theorem FunctionQuery.rowsOf_execute (query : FunctionQuery)
    (untouched : projectID ∉ query.touches db) :
    (query.execute moment db).2.rowsOf projectID = db.rowsOf projectID := by
  cases query with
  | createFunction changed name language path isAsync createdBy =>
      have other : changed ≠ projectID := by simpa [touches, eq_comm] using untouched
      simp only [execute]
      split
      · rfl
      · split
        · rfl
        · next functions inserted =>
            have kept := Table.filter_insert (·.projectID = projectID) inserted
              (by simpa)
            simp only [Database.rowsOf, kept]
  | getFunctionByID id => rfl
  | listFunctionsForProject read => rfl
  | updateFunctionPath id path => exact rowsOf_change untouched fun _ => rfl
  | updateFunctionIsAsync id isAsync => exact rowsOf_change untouched fun _ => rfl
  | deleteFunction id =>
      simp only [execute]
      split
      · rfl
      · next id =>
          simp only [touches, Option.toList_some, List.flatMap_singleton, List.mem_append,
            not_or] at untouched
          have keptFunctions := Table.filter_remove db.functions
            (·.projectID = projectID) (·.id = id) (by
              intro row member selected
              have other : row.projectID ≠ projectID := by
                rintro rfl
                exact untouched.1 (List.mem_map.mpr
                  ⟨row, List.mem_filter.mpr ⟨member, selected⟩, rfl⟩)
              simpa using other)
          have keptEndpoints := Table.filter_remove db.endpoints
            (·.projectID = projectID) (·.functionID = id) (by
              intro row member selected
              have other : row.projectID ≠ projectID := by
                rintro rfl
                exact untouched.2 (List.mem_map.mpr
                  ⟨row, List.mem_filter.mpr ⟨member, selected⟩, rfl⟩)
              simpa using other)
          simp only [Database.rowsOf, keptFunctions, keptEndpoints]
  | listFunctionsSearchPaged read search limit offset => rfl

theorem EndpointQuery.rowsOf_execute (query : EndpointQuery)
    (untouched : projectID ∉ query.touches db) :
    (query.execute moment db).2.rowsOf projectID = db.rowsOf projectID := by
  cases query with
  | createEndpoint changed name method scope functionID =>
      have other : changed ≠ projectID := by
        rintro rfl
        exact untouched List.mem_cons_self
      simp only [execute]
      split
      · rfl
      · split
        · rfl
        · next endpoints inserted =>
            have kept := Table.filter_insert (·.projectID = projectID) inserted
              (by simpa)
            simp only [Database.rowsOf, kept]
  | listEndpointsForProject read => rfl
  | getEndpointByID id => rfl
  | updateEndpointMethodScope id method scope =>
      simp only [execute]
      repeat' split
      all_goals try rfl
      next endpoints modified =>
        have kept := Table.filter_modify (·.projectID = projectID) modified (by
          intro row member selected
          have other : row.projectID ≠ projectID := by
            rintro rfl
            exact untouched (List.mem_map.mpr ⟨row, List.mem_filter.mpr ⟨member, selected⟩, rfl⟩)
          simpa using other)
        simp only [Database.rowsOf, kept]
  | listEndpointsSearch read search limit offset => rfl

theorem ProjectQuery.rowsOf_execute (query : ProjectQuery) :
    (query.execute moment db).2.rowsOf projectID = db.rowsOf projectID := by
  cases query with
  | createProject name createdBy =>
      simp only [execute]
      repeat' split
      all_goals rfl
  | getProjectByID id => rfl

theorem AuthQuery.rowsOf_execute (query : AuthQuery) :
    (query.execute moment db).2.rowsOf projectID = db.rowsOf projectID := by
  cases query <;> simp only [execute] <;> repeat' split
  all_goals rfl

/-- A statement leaves the rows of every project that it does not touch. -/
theorem Query.rowsOf_execute (query : Query) (untouched : projectID ∉ query.touches db) :
    (query.execute moment db).2.rowsOf projectID = db.rowsOf projectID := by
  cases query with
  | access query => exact query.rowsOf_execute untouched
  | project query => exact query.rowsOf_execute
  | function query => exact query.rowsOf_execute untouched
  | endpoint query => exact query.rowsOf_execute untouched
  | auth query => exact query.rowsOf_execute

end Untouched

end Portal

end Litefunctions
