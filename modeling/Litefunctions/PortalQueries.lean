import Litefunctions.PortalDatabase
import Mathlib.Data.List.Sort

/-!
# Queries of the portal

The statements of the portal's five query files.  An id or a user that is null
selects no row.  What the database adds of its own, the time and the ids of new
rows, is given by the moment of the query.
-/

namespace Litefunctions

namespace Portal

inductive DbError where
  | noRows
  | constraint
  | invalidText
  | failed
  deriving DecidableEq, Repr

/-- The time of a statement and the id that a row it inserts gets. -/
structure Moment where
  now : Int
  fresh : Uuid

/-- The result of a statement that returns one row. -/
def oneRow {Row : Type} : Option Row → Except DbError Row
  | none => .error .noRows
  | some row => .ok row

/-- `LIKE` on lower-case texts: `%` stands for any text, `_` for one character
and a backslash takes the next one literally. -/
def likeMatch : List Char → List Char → Bool
  | [], text => text.isEmpty
  | '%' :: pattern, text => text.tails.any fun rest => likeMatch pattern rest
  | '_' :: pattern, _ :: text => likeMatch pattern text
  | '\\' :: char :: pattern, first :: text => char == first && likeMatch pattern text
  | char :: pattern, first :: text => char == first && likeMatch pattern text
  | _, _ => false

/-- `$2::text = '' OR name ILIKE '%' || $2::text || '%'`. -/
def searchMatches (search name : String) : Bool :=
  search = "" ||
    likeMatch (('%' :: search.toList ++ ['%']).map Char.toLower) (name.toList.map Char.toLower)

/-- `LIMIT` and `OFFSET`; the database rejects negative ones. -/
def page {Row : Type} (limit offset : Int) (rows : List Row) : Except DbError (List Row) :=
  if limit < 0 ∨ offset < 0 then .error .failed
  else .ok ((rows.drop offset.toNat).take limit.toNat)

/-! ### Access -/

inductive AccessQuery where
  | addProjectOwner (userID : Bytes) (projectID : Uuid)
  | listProjectsForUser (userID : Bytes)
  | getUserProjectRole (userID : Bytes) (projectID : Uuid)
  | updateUserProjectRole (userID : Option Bytes) (projectID : Uuid) (role : String)
  | revokeProjectAccess (projectID : Uuid) (userID : Option Bytes)
  | createProjectInvite (projectID : Uuid) (inviteCode : String) (createdBy : Bytes)
      (expiresAt : Int)
  | getValidInviteByCode (inviteCode : String)
  | addViewerToProject (userID : Bytes) (projectID : Uuid)
  | markInviteUsed (id : Uuid)
  | listUsersForProject (projectID : Uuid)

namespace AccessQuery

abbrev Value : AccessQuery → Type
  | addProjectOwner _ _ => Unit
  | listProjectsForUser _ => List (Project × Role)
  | getUserProjectRole _ _ => String
  | updateUserProjectRole _ _ _ => Unit
  | revokeProjectAccess _ _ => Unit
  | createProjectInvite _ _ _ _ => ProjectInvite
  | getValidInviteByCode _ => ProjectInvite
  | addViewerToProject _ _ => Unit
  | markInviteUsed _ => Unit
  | listUsersForProject _ => List (User × Role)

/-- Insert an access row, whose user and project have to exist. -/
def insertAccess (row : ProjectAccess) (db : Database) : Except DbError Unit × Database :=
  if (db.user? row.userID).isNone ∨ (db.project? row.projectID).isNone then
    (.error .constraint, db)
  else
    match db.access.insert row with
    | none => (.error .constraint, db)
    | some access => (.ok (), { db with access })

/-- Set the role of the rows of a user in a project. -/
def setRole (userID : Bytes) (projectID : Uuid) (role : Role) (db : Database) :
    Except DbError Unit × Database :=
  match db.access.modify (fun row => row.userID = userID ∧ row.projectID = projectID)
      fun row => { row with role } with
  | none => (.error .constraint, db)
  | some access => (.ok (), { db with access })

def execute (moment : Moment) : (query : AccessQuery) → Database →
    Except DbError query.Value × Database
  | addProjectOwner userID projectID, db =>
      match db.access? userID projectID with
      | none => insertAccess ⟨userID, projectID, .owner⟩ db
      | some _ => setRole userID projectID .owner db
  | listProjectsForUser userID, db =>
      let joined := (db.access.rows.filter (·.userID = userID)).filterMap fun row =>
        (db.project? row.projectID).map fun project => (project, row.role)
      (.ok (joined.insertionSort fun first second => second.1.createdAt ≤ first.1.createdAt), db)
  | getUserProjectRole userID projectID, db =>
      (oneRow ((db.role? userID projectID).map Role.text), db)
  | updateUserProjectRole userID projectID role, db =>
      match userID with
      | none => (.ok (), db)
      | some userID =>
          match db.access? userID projectID with
          | none => (.ok (), db)
          | some _ =>
              match Role.ofText role with
              | none => (.error .invalidText, db)
              | some role => setRole userID projectID role db
  | revokeProjectAccess projectID userID, db =>
      match userID with
      | none => (.ok (), db)
      | some userID =>
          (.ok (), { db with
            access := db.access.remove fun row =>
              row.projectID = projectID ∧ row.userID = userID ∧ row.role ≠ .owner })
  | createProjectInvite projectID inviteCode createdBy expiresAt, db =>
      let row : ProjectInvite :=
        ⟨moment.fresh, projectID, inviteCode, createdBy, expiresAt, none⟩
      if (db.project? projectID).isNone ∨ (db.user? createdBy).isNone ∨
          expiresAt ≤ moment.now then
        (.error .constraint, db)
      else
        match db.invites.insert row with
        | none => (.error .constraint, db)
        | some invites => (.ok row, { db with invites })
  | getValidInviteByCode inviteCode, db =>
      (oneRow (db.invites.find? fun row =>
        row.inviteCode = inviteCode ∧ row.usedAt = none ∧ moment.now < row.expiresAt), db)
  | addViewerToProject userID projectID, db =>
      match db.access? userID projectID with
      | none => insertAccess ⟨userID, projectID, .viewer⟩ db
      | some _ => (.ok (), db)
  | markInviteUsed id, db =>
      match db.invites.modify (·.id = id) fun row => { row with usedAt := some moment.now } with
      | none => (.error .constraint, db)
      | some invites => (.ok (), { db with invites })
  | listUsersForProject projectID, db =>
      let joined := (db.access.rows.filter (·.projectID = projectID)).filterMap fun row =>
        (db.user? row.userID).map fun user => (user, row.role)
      (.ok (joined.insertionSort fun first second =>
        second.2.rank < first.2.rank ∨
          (first.2.rank = second.2.rank ∧ first.1.name ≤ second.1.name)), db)

end AccessQuery

/-! ### Projects -/

inductive ProjectQuery where
  | createProject (name : String) (createdBy : Bytes)
  | getProjectByID (id : Uuid)

namespace ProjectQuery

abbrev Value : ProjectQuery → Type
  | createProject _ _ => Project
  | getProjectByID _ => Project

def execute (moment : Moment) : (query : ProjectQuery) → Database →
    Except DbError query.Value × Database
  | createProject name createdBy, db =>
      let row : Project := ⟨moment.fresh, name, createdBy, moment.now⟩
      if (db.user? createdBy).isNone then
        (.error .constraint, db)
      else
        match db.projects.insert row with
        | none => (.error .constraint, db)
        | some projects => (.ok row, { db with projects })
  | getProjectByID id, db => (oneRow (db.project? id), db)

end ProjectQuery

/-! ### Functions -/

inductive FunctionQuery where
  | createFunction (projectID : Uuid) (name language path : String) (isAsync : Bool)
      (createdBy : Bytes)
  | getFunctionByID (id : Option Uuid)
  | listFunctionsForProject (projectID : Uuid)
  | updateFunctionPath (id : Option Uuid) (path : String)
  | updateFunctionIsAsync (id : Option Uuid) (isAsync : Bool)
  | deleteFunction (id : Option Uuid)
  | listFunctionsSearchPaged (projectID : Uuid) (search : String) (limit offset : Int)

namespace FunctionQuery

abbrev Value : FunctionQuery → Type
  | createFunction _ _ _ _ _ _ => FunctionRow
  | getFunctionByID _ => FunctionRow
  | listFunctionsForProject _ => List FunctionRow
  | updateFunctionPath _ _ => FunctionRow
  | updateFunctionIsAsync _ _ => FunctionRow
  | deleteFunction _ => Unit
  | listFunctionsSearchPaged _ _ _ _ => List FunctionRow

/-- `ORDER BY language ASC, created_at DESC`. -/
def inOrder (rows : List FunctionRow) : List FunctionRow :=
  rows.insertionSort fun first second =>
    first.language < second.language ∨
      (first.language = second.language ∧ second.createdAt ≤ first.createdAt)

def ofProject (projectID : Uuid) (db : Database) : List FunctionRow :=
  inOrder (db.functions.rows.filter (·.projectID = projectID))

/-- Change the function with this id and return it. -/
def change (id : Option Uuid) (edit : FunctionRow → FunctionRow) (db : Database) :
    Except DbError FunctionRow × Database :=
  match id.bind db.function? with
  | none => (.error .noRows, db)
  | some row =>
      match db.functions.modify (·.id = row.id) edit with
      | none => (.error .constraint, db)
      | some functions => (.ok (edit row), { db with functions })

def execute (moment : Moment) : (query : FunctionQuery) → Database →
    Except DbError query.Value × Database
  | createFunction projectID name language path isAsync createdBy, db =>
      let row : FunctionRow :=
        ⟨moment.fresh, projectID, name, language, path, isAsync, createdBy, moment.now⟩
      if (db.project? projectID).isNone ∨ (db.user? createdBy).isNone then
        (.error .constraint, db)
      else
        match db.functions.insert row with
        | none => (.error .constraint, db)
        | some functions => (.ok row, { db with functions })
  | getFunctionByID id, db => (oneRow (id.bind db.function?), db)
  | listFunctionsForProject projectID, db => (.ok (ofProject projectID db), db)
  | updateFunctionPath id path, db => change id (fun row => { row with path }) db
  | updateFunctionIsAsync id isAsync, db => change id (fun row => { row with isAsync }) db
  | deleteFunction id, db =>
      match id with
      | none => (.ok (), db)
      | some id =>
          (.ok (), { db with
            functions := db.functions.remove (·.id = id)
            endpoints := db.endpoints.remove (·.functionID = id) })
  | listFunctionsSearchPaged projectID search limit offset, db =>
      (page limit offset ((ofProject projectID db).filter fun row =>
        searchMatches search row.name), db)

end FunctionQuery

/-! ### Endpoints -/

/-- An endpoint joined with its function. -/
structure EndpointView where
  endpoint : Endpoint
  functionName : String
  functionLanguage : String
  isAsync : Bool
  deriving DecidableEq, Repr

inductive EndpointQuery where
  | createEndpoint (projectID : Uuid) (name method scope : String) (functionID : Uuid)
  | listEndpointsForProject (projectID : Uuid)
  | getEndpointByID (id : Uuid)
  | updateEndpointMethodScope (id : Uuid) (method scope : String)
  | listEndpointsSearch (projectID : Uuid) (search : String) (limit offset : Int)

namespace EndpointQuery

abbrev Value : EndpointQuery → Type
  | createEndpoint _ _ _ _ _ => Endpoint
  | listEndpointsForProject _ => List EndpointView
  | getEndpointByID _ => Endpoint
  | updateEndpointMethodScope _ _ _ => Endpoint
  | listEndpointsSearch _ _ _ _ => List EndpointView

/-- The check on `scope`. -/
def validScope (scope : String) : Bool :=
  scope = "public" ∨ scope = "authn"

/-- The endpoints of a project with their functions, by name and method. -/
def ofProject (projectID : Uuid) (db : Database) : List EndpointView :=
  let joined := (db.endpoints.rows.filter (·.projectID = projectID)).filterMap fun row =>
    (db.function? row.functionID).map fun function =>
      (⟨row, function.name, function.language, function.isAsync⟩ : EndpointView)
  joined.insertionSort fun first second =>
    first.endpoint.name < second.endpoint.name ∨
      (first.endpoint.name = second.endpoint.name ∧
        first.endpoint.method ≤ second.endpoint.method)

def execute (moment : Moment) : (query : EndpointQuery) → Database →
    Except DbError query.Value × Database
  | createEndpoint projectID name method scope functionID, db =>
      let row : Endpoint :=
        ⟨moment.fresh, projectID, name, method, scope, functionID, moment.now⟩
      if (db.project? projectID).isNone ∨ (db.function? functionID).isNone ∨
          !validScope scope then
        (.error .constraint, db)
      else
        match db.endpoints.insert row with
        | none => (.error .constraint, db)
        | some endpoints => (.ok row, { db with endpoints })
  | listEndpointsForProject projectID, db => (.ok (ofProject projectID db), db)
  | getEndpointByID id, db => (oneRow (db.endpoint? id), db)
  | updateEndpointMethodScope id method scope, db =>
      match db.endpoint? id with
      | none => (.error .noRows, db)
      | some row =>
          if !validScope scope then (.error .constraint, db)
          else
            match db.endpoints.modify (·.id = id) fun row => { row with method, scope } with
            | none => (.error .constraint, db)
            | some endpoints => (.ok { row with method, scope }, { db with endpoints })
  | listEndpointsSearch projectID search limit offset, db =>
      (page limit offset ((ofProject projectID db).filter fun row =>
        searchMatches search row.endpoint.name), db)

end EndpointQuery

/-! ### Users, credentials and sessions -/

inductive AuthQuery where
  | createUser (id : Bytes) (name displayName : String)
  | getUserByName (name : String)
  | getUserByID (id : Bytes)
  | createCredential (credential : Credential)
  | getCredentialsForUser (userID : Bytes)
  | updateCredential (credential : Credential)
  | saveSession (session : WebauthnSession)
  | getSession (sessionID : String)
  | deleteSession (sessionID : String)
  | createUserSession (sessionID : String) (userID : Bytes) (expiresAt : Int)
  | getUserSession (sessionID : String)
  | deleteUserSession (sessionID : String)

namespace AuthQuery

abbrev Value : AuthQuery → Type
  | createUser _ _ _ => Unit
  | getUserByName _ => User
  | getUserByID _ => User
  | createCredential _ => Unit
  | getCredentialsForUser _ => List Credential
  | updateCredential _ => Unit
  | saveSession _ => Unit
  | getSession _ => WebauthnSession
  | deleteSession _ => Unit
  | createUserSession _ _ _ => Unit
  | getUserSession _ => UserSession
  | deleteUserSession _ => Unit

def execute (moment : Moment) : (query : AuthQuery) → Database →
    Except DbError query.Value × Database
  | createUser id name displayName, db =>
      match db.user? id with
      | some _ => (.ok (), db)
      | none =>
          match db.users.insert ⟨id, name, displayName⟩ with
          | none => (.error .constraint, db)
          | some users => (.ok (), { db with users })
  | getUserByName name, db => (oneRow (db.users.find? (·.name = name)), db)
  | getUserByID id, db => (oneRow (db.user? id), db)
  | createCredential credential, db =>
      if (db.user? credential.userID).isNone then (.error .constraint, db)
      else
        match db.credentials.insert credential with
        | none => (.ok (), db)
        | some credentials => (.ok (), { db with credentials })
  | getCredentialsForUser userID, db =>
      (.ok (db.credentials.rows.filter (·.userID = userID)), db)
  | updateCredential credential, db =>
      match db.credentials.modify (·.id = credential.id) fun row =>
          { credential with id := row.id, userID := row.userID } with
      | none => (.error .constraint, db)
      | some credentials => (.ok (), { db with credentials })
  | saveSession session, db =>
      match (db.webauthnSessions.remove (·.sessionID = session.sessionID)).insert session with
      | none => (.error .constraint, db)
      | some webauthnSessions => (.ok (), { db with webauthnSessions })
  | getSession sessionID, db =>
      (oneRow (db.webauthnSessions.find? (·.sessionID = sessionID)), db)
  | deleteSession sessionID, db =>
      (.ok (), { db with
        webauthnSessions := db.webauthnSessions.remove (·.sessionID = sessionID) })
  | createUserSession sessionID userID expiresAt, db =>
      if (db.user? userID).isNone then (.error .constraint, db)
      else
        match db.userSessions.insert ⟨sessionID, userID, expiresAt⟩ with
        | none => (.error .constraint, db)
        | some userSessions => (.ok (), { db with userSessions })
  | getUserSession sessionID, db =>
      (oneRow (db.userSessions.find? fun row =>
        row.sessionID = sessionID ∧ moment.now < row.expiresAt), db)
  | deleteUserSession sessionID, db =>
      (.ok (), { db with userSessions := db.userSessions.remove (·.sessionID = sessionID) })

end AuthQuery

/-- A statement of the portal. -/
inductive Query where
  | access (query : AccessQuery)
  | project (query : ProjectQuery)
  | function (query : FunctionQuery)
  | endpoint (query : EndpointQuery)
  | auth (query : AuthQuery)

namespace Query

abbrev Value : Query → Type
  | access query => query.Value
  | project query => query.Value
  | function query => query.Value
  | endpoint query => query.Value
  | auth query => query.Value

def execute (moment : Moment) : (query : Query) → Database →
    Except DbError query.Value × Database
  | access query, db => query.execute moment db
  | project query, db => query.execute moment db
  | function query, db => query.execute moment db
  | endpoint query, db => query.execute moment db
  | auth query, db => query.execute moment db

end Query

end Portal

end Litefunctions
