import Litefunctions.InterleavedPrograms
import Litefunctions.PortalProjects

/-!
# Concurrent joins

Requests to join a project run in transactions of their own at the isolation
level READ COMMITTED.  A statement sees what is committed and what its own
transaction wrote.  Reading an invite for an update locks its row until the end
of the transaction: a transaction that finds the row locked waits, and goes on
with what is committed then.  Inserting a row waits for other transactions that
have inserted the same key.  `now()` is the start of the transaction.
-/

namespace Litefunctions

namespace Portal

open Program

/-! ### The handler -/

/-- The calls of `JoinProjectByInvite`. -/
inductive JoinCall where
  | begin
  | getValidInviteByCode (code : String)
  | addViewerToProject (userID : Bytes) (projectID : Uuid)
  | markInviteUsed (id : Uuid)
  | commit
  | rollback
  deriving DecidableEq, Repr

namespace JoinCall

def toPortal : JoinCall → PortalCall
  | begin => .begin
  | getValidInviteByCode code => .query (.access (.getValidInviteByCode code))
  | addViewerToProject userID projectID => .query (.access (.addViewerToProject userID projectID))
  | markInviteUsed id => .query (.access (.markInviteUsed id))
  | commit => .commit
  | rollback => .rollback

end JoinCall

/-- A call of the transaction with this number. -/
abbrev TxCall := Nat × JoinCall

abbrev TxCall.Response (request : TxCall) : Type :=
  request.2.toPortal.Response

abbrev TxProgram := Program TxCall TxCall.Response

namespace Join

/-- The deferred rollback after an error. -/
def fail (tid : Nat) (replies : List Reply) : TxProgram (List Reply) :=
  .call (tid, .rollback) fun _ => .done replies

def commit (tid : Nat) (invite : ProjectInvite) : TxProgram (List Reply) :=
  .call (tid, .commit) fun (isCommitted : Bool) =>
    if isCommitted then .done [.json 200 (.obj [("project_id", .str invite.projectID.text)])]
    else .done [.error 500 "failed to commit"]

def markUsed (tid : Nat) (invite : ProjectInvite) : TxProgram (List Reply) :=
  .call (tid, .markInviteUsed invite.id) fun (marked : Except DbError Unit) =>
    match marked with
    | .error _ => fail tid [.error 500 "failed to consume invite"]
    | .ok _ => commit tid invite

def addViewer (tid : Nat) (user : Bytes) (invite : ProjectInvite) : TxProgram (List Reply) :=
  .call (tid, .addViewerToProject user invite.projectID) fun (added : Except DbError Unit) =>
    match added with
    | .error _ => fail tid [.error 500 "failed to add user to project"]
    | .ok _ => markUsed tid invite

def readInvite (tid : Nat) (user : Bytes) (code : String) : TxProgram (List Reply) :=
  .call (tid, .getValidInviteByCode code) fun (found : Except DbError ProjectInvite) =>
    match found with
    | .error _ => fail tid [.error 400 "invalid or expired invite"]
    | .ok invite =>
        if invite.createdBy = user then fail tid [.error 400 "cannot use your own invite"]
        else addViewer tid user invite

/-- `JoinProjectByInvite` of a user with the code of an invite. -/
def joinProjectByInvite (tid : Nat) (user : Bytes) (code : String) : TxProgram (List Reply) :=
  if code = "" then .done [.error 400 "invite code required"]
  else
    .call (tid, .begin) fun (isBegun : Bool) =>
      if isBegun then readInvite tid user code
      else .done [.error 500 "failed to start transaction"]

/-- The handler of the portal makes the same calls. -/
theorem lift_joinProjectByInvite (tid : Nat) (c : Context) (code : Option String) :
    (joinProjectByInvite tid c.userID (code.getD "")).lift (fun request : TxCall => request.2.toPortal)
        (fun _ response => response) =
      ProjectHandlers.joinProjectByInvite c code := by
  unfold joinProjectByInvite ProjectHandlers.joinProjectByInvite ProjectHandlers.inTransaction
  split
  · rfl
  · refine congrArg (Program.call PortalCall.begin) (funext fun isBegun => ?_)
    cases isBegun with
    | false => rfl
    | true =>
        refine congrArg (Program.call (PortalCall.query (.access (.getValidInviteByCode (code.getD "")))))
          (funext fun found => ?_)
        cases found with
        | error err => rfl
        | ok invite =>
            show lift _ _ (if invite.createdBy = c.userID then _ else _) =
              (if invite.createdBy = c.userID then _ else _ : PortalProgram _) >>= _
            split
            · rfl
            · refine congrArg (Program.call (PortalCall.query (.access
                (.addViewerToProject c.userID invite.projectID)))) (funext fun added => ?_)
              cases added with
              | error err => rfl
              | ok _ =>
                  refine congrArg (Program.call (PortalCall.query (.access
                    (.markInviteUsed invite.id)))) (funext fun marked => ?_)
                  cases marked with
                  | error err => rfl
                  | ok _ =>
                      refine congrArg (Program.call PortalCall.commit) (funext fun isCommitted => ?_)
                      cases isCommitted <;> rfl

end Join

/-! ### Transactions -/

/-- A change of a row that is not committed yet. -/
inductive RowWrite where
  | insertAccess (row : ProjectAccess)
  | markUsed (id : Uuid)
  deriving DecidableEq, Repr

/-- A row that was read for an update, with the time of the read. -/
structure LockedRead where
  invite : ProjectInvite
  readAt : Int
  deriving DecidableEq, Repr

/-- An open transaction, with what it has read and written. -/
structure OpenTx where
  startedAt : Int
  reads : List LockedRead
  writes : List RowWrite
  deriving DecidableEq, Repr

/-- The transaction uses up the invite. -/
def OpenTx.Consumes (tx : OpenTx) (id : Uuid) : Prop :=
  .markUsed id ∈ tx.writes

/-- The effect of a write on the database; the time is the start of its
transaction. -/
def RowWrite.apply (startedAt : Int) (db : Database) : RowWrite → Database
  | insertAccess row =>
      match db.access.insert row with
      | none => db
      | some access => { db with access }
  | markUsed id =>
      match db.invites.modify (·.id = id) fun row => { row with usedAt := some startedAt } with
      | none => db
      | some invites => { db with invites }

/-- What a transaction sees: the committed rows and its own writes. -/
def OpenTx.view (tx : OpenTx) (db : Database) : Database :=
  tx.writes.foldl (fun db write => write.apply tx.startedAt db) db

/-- A committed transaction. -/
structure CommittedTx where
  tid : Nat
  tx : OpenTx
  deriving DecidableEq, Repr

/-- What one transaction at a time can hold: the row of an invite, and the key
of an access row that it has inserted. -/
inductive Lockable where
  | invite (id : Uuid)
  | access (userID : Bytes) (projectID : Uuid)
  deriving DecidableEq, Repr

/-- The committed rows, the open transactions by their numbers, what they hold,
and the transactions that were committed so far. -/
structure TxShared where
  db : Database
  clock : Int
  openTx : Nat → Option OpenTx
  holder : Lockable → Option Nat
  committed : List CommittedTx

/-- How a call ends, and how long it takes. -/
structure TxChoice where
  fault : PortalCall.Fault := .none
  elapsed : Nat := 0
  deriving Repr

namespace TxShared

/-- Another transaction holds it. -/
def HeldElsewhere (shared : TxShared) (tid : Nat) (lockable : Lockable) : Prop :=
  ∃ other ∈ shared.holder lockable, other ≠ tid

instance (shared : TxShared) (tid : Nat) (lockable : Lockable) :
    Decidable (shared.HeldElsewhere tid lockable) :=
  inferInstanceAs (Decidable (∃ other ∈ shared.holder lockable, other ≠ tid))

/-- The transaction is now as `tx` says. -/
def setTx (shared : TxShared) (tid : Nat) (tx : OpenTx) : TxShared :=
  { shared with openTx := Function.update shared.openTx tid (some tx) }

/-- The transaction is now as `tx` says and holds something. -/
def holding (shared : TxShared) (tid : Nat) (lockable : Lockable) (tx : OpenTx) : TxShared :=
  { shared.setTx tid tx with holder := Function.update shared.holder lockable (some tid) }

/-- The end of a transaction, which releases what it holds. -/
def close (shared : TxShared) (tid : Nat) : TxShared :=
  { shared with
    openTx := Function.update shared.openTx tid none
    holder := fun lockable =>
      if shared.holder lockable = some tid then none else shared.holder lockable }

/-- The writes of the transaction become visible to all. -/
def commit (shared : TxShared) (tid : Nat) (tx : OpenTx) : TxShared :=
  { shared.close tid with
    db := tx.view shared.db
    committed := shared.committed ++ [⟨tid, tx⟩] }

/-- The answer of a statement, or the error of the environment. -/
def answer {Value : Type} (fault : PortalCall.Fault) (result : Except DbError Value) :
    Except DbError Value :=
  if fault = .none then result else .error .failed

/-- A statement in a transaction that takes effect, which it does not without an
open transaction or where it is refused. -/
def statement {Value : Type} (shared : TxShared) (tid : Nat) (fault : PortalCall.Fault)
    (run : OpenTx → Option (Except DbError Value × TxShared)) :
    Option (Except DbError Value × TxShared) :=
  match shared.openTx tid with
  | none => some (.error .failed, shared)
  | some tx =>
      if fault = .refused then some (.error .failed, shared)
      else (run tx).map fun answered => (answer fault answered.1, answered.2)

/-- `GetValidInviteByCode`; it waits while another transaction holds the row. -/
def getValidInviteByCode (shared : TxShared) (tid : Nat) (code : String) (tx : OpenTx) :
    Option (Except DbError ProjectInvite × TxShared) :=
  match (tx.view shared.db).invites.find? fun row =>
      row.inviteCode = code ∧ row.usedAt = none ∧ tx.startedAt < row.expiresAt with
  | none => some (.error .noRows, shared)
  | some row =>
      if shared.HeldElsewhere tid (.invite row.id) then none
      else
        some (.ok row, shared.holding tid (.invite row.id)
          { tx with reads := tx.reads ++ [⟨row, shared.clock⟩] })

/-- `AddViewerToProject`; it waits while another transaction has inserted the
key. -/
def addViewerToProject (shared : TxShared) (tid : Nat) (userID : Bytes) (projectID : Uuid)
    (tx : OpenTx) : Option (Except DbError Unit × TxShared) :=
  let view := tx.view shared.db
  if shared.HeldElsewhere tid (.access userID projectID) then none
  else
    match view.access? userID projectID with
    | some _ => some (.ok (), shared)
    | none =>
        if (view.user? userID).isNone ∨ (view.project? projectID).isNone then
          some (.error .constraint, shared)
        else
          some (.ok (), shared.holding tid (.access userID projectID)
            { tx with writes := tx.writes ++ [.insertAccess ⟨userID, projectID, .viewer⟩] })

/-- `MarkInviteUsed`; it waits while another transaction holds the row. -/
def markInviteUsed (shared : TxShared) (tid : Nat) (id : Uuid) (tx : OpenTx) :
    Option (Except DbError Unit × TxShared) :=
  match (tx.view shared.db).invites.find? (·.id = id) with
  | none => some (.ok (), shared)
  | some _ =>
      if shared.HeldElsewhere tid (.invite id) then none
      else
        some (.ok (), shared.holding tid (.invite id)
          { tx with writes := tx.writes ++ [.markUsed id] })

/-- The response to a call and what is shared after it; nothing while it has to
wait. -/
def execute (request : TxCall) (choice : TxChoice) (shared : TxShared) :
    Option (request.Response × TxShared) :=
  let shared := { shared with clock := shared.clock + choice.elapsed }
  match request with
  | (tid, .begin) =>
      match choice.fault with
      | .none => some (true, shared.setTx tid ⟨shared.clock, [], []⟩)
      | _ => some (false, shared)
  | (tid, .getValidInviteByCode code) =>
      shared.statement tid choice.fault (shared.getValidInviteByCode tid code)
  | (tid, .addViewerToProject userID projectID) =>
      shared.statement tid choice.fault (shared.addViewerToProject tid userID projectID)
  | (tid, .markInviteUsed id) =>
      shared.statement tid choice.fault (shared.markInviteUsed tid id)
  | (tid, .commit) =>
      match shared.openTx tid, choice.fault with
      | none, _ => some (false, shared)
      | some tx, .none => some (true, shared.commit tid tx)
      | some _, .refused => some (false, shared.close tid)
      | some tx, .lost => some (false, shared.commit tid tx)
  | (tid, .rollback) => some ((), shared.close tid)

end TxShared

end Portal

end Litefunctions
