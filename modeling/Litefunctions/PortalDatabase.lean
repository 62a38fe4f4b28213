import Litefunctions.HexText
import Litefunctions.Tables

/-!
# The portal's database

The tables of the portal with their uniqueness constraints.  A project has
members with roles, invites, functions and endpoints; functions are unique by
name within a project, endpoints by name and method.  Users, passkey
credentials and the two kinds of sessions belong to no project.
-/

namespace Litefunctions

namespace Portal

/-- An id of 16 bytes. -/
abbrev Uuid := { bytes : Bytes // bytes.length = 16 }

namespace Uuid

/-- `hex.EncodeToString` of the bytes. -/
def hex (id : Uuid) : String :=
  HexText.encode id.val

/-- `copy(id.Bytes[:], bytes)`: missing bytes are zero, more than 16 are cut. -/
def copy (bytes : Bytes) : Uuid :=
  ⟨(bytes ++ List.replicate 16 0).take 16, by simp⟩

end Uuid

/-- `project_role`. -/
inductive Role where
  | owner
  | manager
  | viewer
  deriving DecidableEq, Repr

namespace Role

def text : Role → String
  | owner => "owner"
  | manager => "manager"
  | viewer => "viewer"

/-- The cast of a text to `project_role`. -/
def ofText : String → Option Role
  | "owner" => some owner
  | "manager" => some manager
  | "viewer" => some viewer
  | _ => none

/-- Higher roles may do more. -/
def rank : Role → Nat
  | owner => 3
  | manager => 2
  | viewer => 1

end Role

structure User where
  id : Bytes
  name : String
  displayName : String
  deriving DecidableEq, Repr

structure Project where
  id : Uuid
  name : String
  createdBy : Bytes
  createdAt : Int
  deriving DecidableEq, Repr

/-- A row of `user_project_access`. -/
structure ProjectAccess where
  userID : Bytes
  projectID : Uuid
  role : Role
  deriving DecidableEq, Repr

structure ProjectInvite where
  id : Uuid
  projectID : Uuid
  inviteCode : String
  createdBy : Bytes
  expiresAt : Int
  usedAt : Option Int
  deriving DecidableEq, Repr

structure FunctionRow where
  id : Uuid
  projectID : Uuid
  name : String
  language : String
  path : String
  isAsync : Bool
  createdBy : Bytes
  createdAt : Int
  deriving DecidableEq, Repr

structure Endpoint where
  id : Uuid
  projectID : Uuid
  name : String
  method : String
  scope : String
  functionID : Uuid
  createdAt : Int
  deriving DecidableEq, Repr

structure UserSession where
  sessionID : String
  userID : Bytes
  expiresAt : Int
  deriving DecidableEq, Repr

structure Credential where
  id : Bytes
  userID : Bytes
  publicKey : Bytes
  attestationType : String
  signCount : Nat
  transports : List String
  flags : Nat
  deriving DecidableEq, Repr

/-- A row of `webauthn_sessions`: the challenge of a ceremony.  Without an
expiry it never expires. -/
structure WebauthnSession where
  sessionID : String
  userName : String
  challenge : Bytes
  userID : Bytes
  allowedCredentials : List Bytes
  expiresAt : Option Int
  rpID : Option String
  credParams : String
  extensions : String
  userVerification : Option String
  mediation : Option String
  deriving DecidableEq, Repr

/-! ### Uniqueness constraints -/

def User.conflicts (first second : User) : Bool :=
  first.id = second.id ∨ first.name = second.name

def Project.conflicts (first second : Project) : Bool :=
  first.id = second.id ∨ first.name = second.name

def ProjectAccess.conflicts (first second : ProjectAccess) : Bool :=
  first.userID = second.userID ∧ first.projectID = second.projectID

def ProjectInvite.conflicts (first second : ProjectInvite) : Bool :=
  first.id = second.id ∨ first.inviteCode = second.inviteCode

def FunctionRow.conflicts (first second : FunctionRow) : Bool :=
  first.id = second.id ∨ (first.projectID = second.projectID ∧ first.name = second.name)

def Endpoint.conflicts (first second : Endpoint) : Bool :=
  first.id = second.id ∨
    (first.projectID = second.projectID ∧ first.name = second.name ∧
      first.method = second.method)

def UserSession.conflicts (first second : UserSession) : Bool :=
  first.sessionID = second.sessionID

def Credential.conflicts (first second : Credential) : Bool :=
  first.id = second.id

def WebauthnSession.conflicts (first second : WebauthnSession) : Bool :=
  first.sessionID = second.sessionID

structure Database where
  users : Table User User.conflicts
  projects : Table Project Project.conflicts
  access : Table ProjectAccess ProjectAccess.conflicts
  invites : Table ProjectInvite ProjectInvite.conflicts
  functions : Table FunctionRow FunctionRow.conflicts
  endpoints : Table Endpoint Endpoint.conflicts
  userSessions : Table UserSession UserSession.conflicts
  credentials : Table Credential Credential.conflicts
  webauthnSessions : Table WebauthnSession WebauthnSession.conflicts

namespace Database

def empty : Database where
  users := .empty
  projects := .empty
  access := .empty
  invites := .empty
  functions := .empty
  endpoints := .empty
  userSessions := .empty
  credentials := .empty
  webauthnSessions := .empty

def user? (db : Database) (id : Bytes) : Option User :=
  db.users.find? (·.id = id)

def project? (db : Database) (id : Uuid) : Option Project :=
  db.projects.find? (·.id = id)

def function? (db : Database) (id : Uuid) : Option FunctionRow :=
  db.functions.find? (·.id = id)

def endpoint? (db : Database) (id : Uuid) : Option Endpoint :=
  db.endpoints.find? (·.id = id)

def access? (db : Database) (userID : Bytes) (projectID : Uuid) : Option ProjectAccess :=
  db.access.find? fun row => row.userID = userID ∧ row.projectID = projectID

/-- The role of a user in a project. -/
def role? (db : Database) (userID : Bytes) (projectID : Uuid) : Option Role :=
  (db.access? userID projectID).map (·.role)

/-- `user_project_access` holds a row for the user and the project. -/
def IsMember (db : Database) (userID : Bytes) (projectID : Uuid) : Prop :=
  ∃ row ∈ db.access.rows, row.userID = userID ∧ row.projectID = projectID

instance (db : Database) (userID : Bytes) (projectID : Uuid) :
    Decidable (db.IsMember userID projectID) :=
  inferInstanceAs (Decidable (∃ row ∈ db.access.rows, _))

end Database

end Portal

end Litefunctions
