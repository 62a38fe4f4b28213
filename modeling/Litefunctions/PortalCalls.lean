import Litefunctions.FunctionService
import Litefunctions.PortalQueries

/-!
# Calls of the portal

A handler of the portal works with the database, with the git repository of a
project, with the VCS vendor and with the operator.  A call may be refused, or
it may take effect although its answer is lost.  A transaction sees its own
changes; rolling it back restores what was there when it began.
-/

namespace Litefunctions

namespace Portal

/-- An error of `Commit`: its text, and whether it is `git.ErrEmptyCommit`. -/
structure CommitError where
  text : String
  isEmptyCommit : Bool
  deriving DecidableEq, Repr

inductive FileError where
  | notFound
  | unreadable
  deriving DecidableEq, Repr

/-- A call to the repository of a project, which is known by its name. -/
inductive RepoCall where
  | new
  | listFiles (directory : String)
  | mkdirAll (path : String)
  | create (path : String) (content : Bytes)
  | read (path : String)
  | remove (path : String)
  | commit (path : String)
  | push

namespace RepoCall

abbrev Response : RepoCall → Type
  | new => Bool
  | listFiles _ => List String
  | mkdirAll _ => Unit
  | create _ _ => Bool
  | read _ => Except FileError Bytes
  | remove _ => Bool
  | commit _ => Except CommitError Unit
  | push => Bool

end RepoCall

structure ActionsProgressOptions where
  branch : String
  status : String
  event : String
  workflowID : String
  limit : Int
  deriving DecidableEq, Repr

/-- A call to the VCS vendor about the repository of this name. -/
inductive VcsCall where
  | createRepo
  | addWebhook (url : String)
  | addWorkflow
  | getActionsProgress (options : ActionsProgressOptions)
  deriving DecidableEq, Repr

/-- The characters of an invite code. -/
def inviteChars : List Char :=
  "ABCDEFGHJKLMNPQRSTUVWXYZ23456789".toList

theorem inviteChars_pos : 0 < inviteChars.length := by
  decide

/-- The results of `rand.Intn` for an invite code. -/
abbrev InviteDraws := Fin 8 → Fin inviteChars.length

def generateInviteCode (draws : InviteDraws) : String :=
  String.ofList ((List.ofFn draws).map inviteChars.get)

inductive PortalCall where
  | query (statement : Query)
  | begin
  | commit
  | rollback
  | repo (project : String) (call : RepoCall)
  | newVendorClient
  | vcs (repository : String) (call : VcsCall)
  | createFunctionCRD (req : Operator.CreateFunctionRequest)
  | drawInvite
  | drawKey
  | drawChallenge
  | drawSessionID
  | now
  | clientGone

namespace PortalCall

abbrev Response : PortalCall → Type
  | query statement => Except DbError statement.Value
  | begin => Bool
  | commit => Bool
  | rollback => Unit
  | repo _ call => call.Response
  | newVendorClient => Except String Unit
  | vcs _ _ => Except String String
  | createFunctionCRD _ => Option Bool
  | drawInvite => InviteDraws
  | drawKey => String
  | drawChallenge => Bytes
  | drawSessionID => Option String
  | now => Int
  | clientGone => Bool

/-- Whether a call fails, and whether its effect takes place then. -/
inductive Fault where
  | none
  | refused
  | lost
  deriving DecidableEq, Repr

/-- What the environment decides at a call. -/
structure Circumstance where
  fault : Fault := .none
  elapsed : Nat := 0
  fresh : Uuid := .copy []
  text : String := ""
  data : Bytes := []
  files : List String := []
  flag : Bool := false
  draws : InviteDraws := fun _ => ⟨0, inviteChars_pos⟩
  operator : Nat → ApiCall.Circumstance := fun _ => ⟨false, 0⟩

/-- What the portal works on; `saved` is the database before the open
transaction. -/
structure World where
  db : Database
  saved : Option Database
  cluster : Cluster
  clock : Int

/-- The answer of a repository or vendor. -/
def repoAnswer (circumstance : Circumstance) : (call : RepoCall) → call.Response
  | .new => circumstance.fault = .none
  | .listFiles _ => circumstance.files
  | .mkdirAll _ => ()
  | .create _ _ => circumstance.fault = .none
  | .read _ =>
      match circumstance.fault with
      | .none => .ok circumstance.data
      | .refused => .error .notFound
      | .lost => .error .unreadable
  | .remove _ => circumstance.fault = .none
  | .commit _ =>
      match circumstance.fault with
      | .none => .ok ()
      | _ => .error ⟨circumstance.text, circumstance.flag⟩
  | .push => circumstance.fault = .none

def textAnswer (circumstance : Circumstance) : Except String String :=
  match circumstance.fault with
  | .none => .ok circumstance.text
  | _ => .error circumstance.text

/-- The response to a call and the world after it. -/
def execute (call : PortalCall) (circumstance : Circumstance) (world : World) :
    call.Response × World :=
  let world := { world with clock := world.clock + circumstance.elapsed }
  match call with
  | query statement =>
      let answered := statement.execute ⟨world.clock, circumstance.fresh⟩ world.db
      match circumstance.fault with
      | .none => (answered.1, { world with db := answered.2 })
      | .refused => (.error .failed, world)
      | .lost => (.error .failed, { world with db := answered.2 })
  | begin =>
      match circumstance.fault with
      | .none => (true, { world with saved := some world.db })
      | _ => (false, world)
  | commit =>
      match circumstance.fault with
      | .none => (true, { world with saved := none })
      | .refused => (false, { world with db := world.saved.getD world.db, saved := none })
      | .lost => (false, { world with saved := none })
  | rollback => ((), { world with db := world.saved.getD world.db, saved := none })
  | repo _ call => (repoAnswer circumstance call, world)
  | newVendorClient => ((textAnswer circumstance).map fun _ => (), world)
  | vcs _ _ => (textAnswer circumstance, world)
  | createFunctionCRD req =>
      let answered := (Operator.createFunction req).runAlone
        (fun call circumstance => call.answer circumstance.unavailable circumstance.elapsed)
        circumstance.operator world.cluster
      match circumstance.fault with
      | .none => (answered.1.toOption, { world with cluster := answered.2 })
      | .refused => (none, world)
      | .lost => (none, { world with cluster := answered.2 })
  | drawInvite => (circumstance.draws, world)
  | drawKey => (circumstance.text, world)
  | drawChallenge => (circumstance.data, world)
  | drawSessionID => ((textAnswer circumstance).toOption, world)
  | now => (world.clock, world)
  | clientGone => (circumstance.flag, world)

end PortalCall

abbrev World := PortalCall.World

/-- A program of the portal. -/
abbrev PortalProgram := Program PortalCall PortalCall.Response

open Program

abbrev accessQuery (query : AccessQuery) : PortalProgram (Except DbError query.Value) :=
  perform (PortalCall.query (.access query))

abbrev projectQuery (query : ProjectQuery) : PortalProgram (Except DbError query.Value) :=
  perform (PortalCall.query (.project query))

abbrev functionQuery (query : FunctionQuery) : PortalProgram (Except DbError query.Value) :=
  perform (PortalCall.query (.function query))

abbrev endpointQuery (query : EndpointQuery) : PortalProgram (Except DbError query.Value) :=
  perform (PortalCall.query (.endpoint query))

abbrev authQuery (query : AuthQuery) : PortalProgram (Except DbError query.Value) :=
  perform (PortalCall.query (.auth query))

abbrev beginTx : PortalProgram Bool :=
  perform PortalCall.begin

abbrev commitTx : PortalProgram Bool :=
  perform PortalCall.commit

abbrev rollbackTx : PortalProgram Unit :=
  perform PortalCall.rollback

abbrev onRepo (project : String) (call : RepoCall) : PortalProgram call.Response :=
  perform (PortalCall.repo project call)

abbrev newVendorClient : PortalProgram (Except String Unit) :=
  perform PortalCall.newVendorClient

abbrev onVcs (repository : String) (call : VcsCall) : PortalProgram (Except String String) :=
  perform (PortalCall.vcs repository call)

abbrev createFunctionCRD (req : Operator.CreateFunctionRequest) : PortalProgram (Option Bool) :=
  perform (PortalCall.createFunctionCRD req)

abbrev drawInvite : PortalProgram InviteDraws :=
  perform PortalCall.drawInvite

/-- `uuid.New().String()`. -/
abbrev drawKey : PortalProgram String :=
  perform PortalCall.drawKey

/-- The random bytes of a challenge. -/
abbrev drawChallenge : PortalProgram Bytes :=
  perform PortalCall.drawChallenge

/-- `GenerateSessionID`, which fails where the random source does. -/
abbrev drawSessionID : PortalProgram (Option String) :=
  perform PortalCall.drawSessionID

abbrev timeNow : PortalProgram Int :=
  perform PortalCall.now

abbrev clientGone : PortalProgram Bool :=
  perform PortalCall.clientGone

end Portal

end Litefunctions
