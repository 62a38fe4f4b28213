import Litefunctions.CoherentRequests
import Litefunctions.PasskeyBindings
import Litefunctions.RoleChanges
import Litefunctions.TokenRegistries

/-!
# User sessions as a registry of tokens

A user session is a token for a user that is valid up to some time.  The end of
a ceremony issues one, if the WebAuthn library accepts it, and a logout revokes
the one of its cookie.  No other request changes the sessions, so a request is
let through as a user exactly when the last event on its cookie's session has
issued it to this user, and it has not expired.
-/

namespace Litefunctions

namespace Portal

open Program TokenEvent

/-- A session stands for a user and ends at some time. -/
abbrev SessionEvent := TokenEvent String (Bytes × Int)

/-- The sessions of the database as a registry. -/
def Database.sessions (db : Database) : TokenRegistry String (Bytes × Int) :=
  fun sessionID =>
    (db.userSessions.find? (·.sessionID = sessionID)).map fun row => (row.userID, row.expiresAt)

section Events

variable {Response : Type} (settings : Settings) (authn : Passkeys.WebAuthn Response)

/-- The request ends a ceremony that the library accepts for the user. -/
inductive Accepts : Route Response → Bytes → Prop
  | registration {key : String} {response : Response} {user : Passkeys.PasskeyUser}
      {session : Passkeys.SessionData} {current : Int} {credential : Passkeys.WebCredential}
      (accepted : authn.finishRegistration user session response current = .ok credential) :
      Accepts (.passkey (.registerFinish key response)) user.id
  | login {key : String} {response : Response} {user : Passkeys.PasskeyUser}
      {session : Passkeys.SessionData} {current : Int} {credential : Passkeys.WebCredential}
      (accepted : authn.finishLogin user session response current = .ok credential) :
      Accepts (.passkey (.loginFinish key response)) user.id

/-- What a request does to the sessions, if anything. -/
inductive Causes (request : Request Response) (before : World) : SessionEvent → Prop
  | nothing : Causes request before .nothing
  | issue {sessionID : String} {userID : Bytes} {expiresAt duration : Int}
      (accepts : Accepts authn request.route userID) (unused : before.db.sessions sessionID = none)
      (expiry : settings.sessionExpiry = some duration)
      (lasts : before.clock + duration ≤ expiresAt) :
      Causes request before (.issue sessionID (userID, expiresAt))
  | revoke {sessionID : String} (isLogout : request.route = .passkey .logout)
      (inCookie : request.cookies.session = some sessionID) :
      Causes request before (.revoke sessionID)

/-- Every request of a run causes the event at its place. -/
def CauseEach (steps : List (RunStep Response)) (events : List SessionEvent) : Prop :=
  List.Forall₂ (fun step event => Causes settings authn step.request step.before event) steps events

/-- The middleware lets a request with these cookies through as the user, unless
a call fails. -/
def Authenticates (cookies : Cookies) (path : String) (userID : Bytes) (world : World) : Prop :=
  ∃ circumstances c, ((authMiddleware cookies path).runAlone PortalCall.execute circumstances
    world).1 = .ok c ∧ c.userID = userID

end Events

/-! ### Sessions in the table -/

section Table

variable {db : Database}

theorem sessions_eq_some_iff {sessionID : String} {userID : Bytes} {expiresAt : Int} :
    db.sessions sessionID = some (userID, expiresAt) ↔
      ⟨sessionID, userID, expiresAt⟩ ∈ db.userSessions.rows := by
  constructor
  · intro isSome
    obtain ⟨row, found, isGrant⟩ := Option.map_eq_some_iff.mp isSome
    obtain ⟨member, isID⟩ := Table.find?_some found
    obtain ⟨rfl, rfl⟩ := Prod.mk.inj isGrant
    obtain rfl := of_decide_eq_true isID
    exact member
  · intro member
    rw [Database.sessions, Table.find?_eq_some (fun first second => ?_) member (decide_eq_true rfl)
      fun other isID => ?_]
    · rfl
    · simp only [UserSession.conflicts, eq_comm]
    · exact decide_eq_true (of_decide_eq_true isID)

theorem sessions_insert {row : UserSession} {userSessions}
    (inserted : db.userSessions.insert row = some userSessions) :
    db.sessions row.sessionID = none ∧
      Database.sessions { db with userSessions } =
        (TokenEvent.issue row.sessionID (row.userID, row.expiresAt)).apply db.sessions := by
  have unused : db.userSessions.find? (·.sessionID = row.sessionID) = none := by
    rw [Table.find?, List.find?_eq_none]
    intro other member isID
    have conflict : db.userSessions.insert row = none :=
      Table.insert_eq_none_iff.mpr ⟨other, member, isID⟩
    rw [conflict] at inserted
    cases inserted
  refine ⟨by rw [Database.sessions, unused]; rfl, funext fun sessionID => ?_⟩
  simp only [Database.sessions, TokenEvent.apply, Table.find?_insert inserted]
  by_cases same : row.sessionID = sessionID
  · rw [← same, unused, Function.update_self]
    simp
  · rw [Function.update_of_ne (Ne.symm same), decide_eq_false same, if_neg Bool.false_ne_true,
      Option.or_none]
    rfl

theorem sessions_remove (sessionID : String) :
    Database.sessions { db with userSessions := db.userSessions.remove (·.sessionID = sessionID) } =
      (TokenEvent.revoke sessionID).apply db.sessions := by
  funext other
  simp only [Database.sessions, TokenEvent.apply, Table.remove, Table.find?, List.find?_filter]
  by_cases same : other = sessionID
  · rw [same, Function.update_self, Option.map_eq_none_iff, List.find?_eq_none]
    intro row member
    simp
  · rw [Function.update_of_ne same]
    congr 2
    funext row
    by_cases isOther : row.sessionID = other
    · simp [isOther, same]
    · simp [isOther]

end Table

/-! ### Calls that leave the sessions alone -/

section Other

/-- The sessions of the database, also if the open transaction is rolled back. -/
structure HasSessions (userSessions : Table UserSession UserSession.conflicts) (world : World) :
    Prop where
  db : world.db.userSessions = userSessions
  saved : ∀ db ∈ world.saved, db.userSessions = userSessions

theorem Query.userSessions_execute {statement : Query}
    (other : (PortalCall.query statement).isOfSession = false) (moment : Moment) (db : Database) :
    (statement.execute moment db).2.userSessions = db.userSessions := by
  cases statement with
  | access query =>
      cases query <;> simp only [Query.execute, AccessQuery.execute, AccessQuery.insertAccess,
        AccessQuery.setRole] <;> repeat' split
      all_goals rfl
  | project query =>
      cases query with
      | createProject name createdBy =>
          simp only [Query.execute, ProjectQuery.execute]
          repeat' split
          all_goals rfl
      | getProjectByID id => rfl
  | function query =>
      cases query <;> simp only [Query.execute, FunctionQuery.execute, FunctionQuery.change] <;>
        repeat' split
      all_goals rfl
  | endpoint query =>
      cases query <;> simp only [Query.execute, EndpointQuery.execute] <;> repeat' split
      all_goals rfl
  | auth query =>
      cases query with
      | createUserSession | deleteUserSession => cases other
      | createUser | createCredential | updateCredential | saveSession =>
          simp only [Query.execute, AuthQuery.execute]
          repeat' split
          all_goals rfl
      | _ => rfl

variable {userSessions : Table UserSession UserSession.conflicts} {world : World}

theorem HasSessions.of_unsaved (isTable : world.db.userSessions = userSessions)
    (closed : world.saved = none) : HasSessions userSessions world :=
  ⟨isTable, fun db isSaved => by rw [closed] at isSaved; cases isSaved⟩

theorem HasSessions.execute {request : PortalCall} (has : HasSessions userSessions world)
    (other : request.isOfSession = false) (circumstance : PortalCall.Circumstance) :
    HasSessions userSessions (PortalCall.execute request circumstance world).2 := by
  have rolledBack : (world.saved.getD world.db).userSessions = userSessions := by
    cases isSaved : world.saved with
    | none => exact has.db
    | some db => exact has.saved db isSaved
  cases request with
  | query statement =>
      have executed := (Query.userSessions_execute other
        ⟨world.clock + circumstance.elapsed, circumstance.fresh⟩ world.db).trans has.db
      simp only [PortalCall.execute]
      cases circumstance.fault with
      | refused => exact ⟨has.db, has.saved⟩
      | none | lost => exact ⟨executed, has.saved⟩
  | begin =>
      simp only [PortalCall.execute]
      cases circumstance.fault with
      | none =>
          refine ⟨has.db, fun db isSaved => ?_⟩
          rw [← Option.some.inj isSaved]
          exact has.db
      | refused | lost => exact ⟨has.db, has.saved⟩
  | commit =>
      simp only [PortalCall.execute]
      cases circumstance.fault with
      | refused => exact .of_unsaved rolledBack rfl
      | none | lost => exact .of_unsaved has.db rfl
  | rollback => exact .of_unsaved rolledBack rfl
  | createFunctionCRD req =>
      simp only [PortalCall.execute]
      cases circumstance.fault <;> exact ⟨has.db, has.saved⟩
  | _ => exact ⟨has.db, has.saved⟩

theorem HasSessions.of_closed (closed : world.saved = none) :
    HasSessions world.db.userSessions world :=
  .of_unsaved rfl closed

/-- The handlers behind the middlewares leave the sessions alone. -/
theorem Orderly.hasSessions {Result : Type} {post : Result → World → Prop}
    {program : PortalProgram Result} (orderly : Orderly post program world)
    (has : HasSessions userSessions world) :
    Ends (fun _ after => HasSessions userSessions after) program world :=
  (Ensures.keeps orderly (fun _ circumstance _ isOrderly held =>
    held.execute isOrderly.noSession circumstance) has).imp (fun _ _ _ => trivial)
      fun _ _ held => held.2

/-- The sessions are the same at a later time. -/
structure SameSessions (world after : World) : Prop where
  table : after.db.userSessions = world.db.userSessions
  clock : world.clock ≤ after.clock

theorem SameSessions.trans {first second third : World} (early : SameSessions first second)
    (late : SameSessions second third) : SameSessions first third :=
  ⟨late.table.trans early.table, early.clock.trans late.clock⟩

theorem SameSessions.sessions {after : World} (same : SameSessions world after) :
    after.db.sessions = world.db.sessions := by
  funext sessionID
  rw [Database.sessions, same.table]
  rfl

/-- A call that belongs neither to a session nor to a transaction. -/
theorem sameSessions_execute {request : PortalCall} (other : request.isOfSession = false)
    (isStep : request.isStep = true) (circumstance : PortalCall.Circumstance) :
    SameSessions world (PortalCall.execute request circumstance world).2 := by
  refine ⟨?_, clock_le_execute request circumstance world⟩
  cases request with
  | query statement =>
      have executed := Query.userSessions_execute other
        ⟨world.clock + circumstance.elapsed, circumstance.fresh⟩ world.db
      simp only [PortalCall.execute]
      cases circumstance.fault with
      | refused => rfl
      | none | lost => exact executed
  | begin | commit | rollback => cases isStep
  | createFunctionCRD req =>
      simp only [PortalCall.execute]
      cases circumstance.fault <;> rfl
  | _ => rfl

theorem sameSessions_of_plain {Result : Type} {program : PortalProgram Result}
    (plain : program.Makes PortalCall.IsPlain) :
    Ends (fun _ after => SameSessions world after) program world := by
  have related : Ensures _ _ program world := (plain.along []).ensures_related SameSessions
    (fun _ => ⟨rfl, le_rfl⟩) fun request circumstance _ before isPlain same =>
      same.trans (sameSessions_execute (isPlain.isOrderly before).noSession isPlain.isStep circumstance)
  exact related.imp (fun _ _ _ => trivial) fun _ _ => id

theorem ends_sameSessions {Result : Type} {post : Result → World → Prop} {request : PortalCall}
    {next : request.Response → PortalProgram Result} (other : request.isOfSession = false)
    (isStep : request.isStep = true)
    (rest : ∀ response after, SameSessions world after → Ends post (next response) after) :
    Ends post (call request next) world :=
  ⟨trivial, fun circumstance => rest _ _ (sameSessions_execute other isStep circumstance)⟩

end Other

/-! ### The end of a ceremony and the logout -/

section Ceremonies

variable {Response : Type} {settings : Settings} {authn : Passkeys.WebAuthn Response}
variable {first world : World} {request : Request Response}

/-- The request has done to the sessions what it may cause. -/
def Caused (settings : Settings) (authn : Passkeys.WebAuthn Response) (request : Request Response)
    (before : World) (after : Database) : Prop :=
  ∃ event, Causes settings authn request before event ∧
    after.sessions = event.apply before.db.sessions

theorem SameSessions.caused (same : SameSessions first world) :
    Caused settings authn request first world.db :=
  ⟨.nothing, .nothing, same.sessions⟩

/-- A new session is stored for the user, or none. -/
theorem createUserSession_caused {sessionID : String} {userID : Bytes} {current duration : Int}
    (same : SameSessions first world) (accepts : Accepts authn request.route userID)
    (expiry : settings.sessionExpiry = some duration) (notPast : first.clock ≤ current)
    (moment : Moment) :
    Caused settings authn request first (Query.execute moment
      (.auth (.createUserSession sessionID userID (current + duration))) world.db).2 := by
  simp only [Query.execute, AuthQuery.execute]
  split
  · exact same.caused
  · split
    · exact same.caused
    · next userSessions inserted =>
        obtain ⟨unused, issued⟩ := sessions_insert inserted
        rw [same.sessions] at unused issued
        have lasts : first.clock + duration ≤ current + duration := by omega
        exact ⟨_, .issue accepts unused expiry lasts, issued⟩

theorem startUserSession_caused {user : Passkeys.PasskeyUser} (success : String)
    (same : SameSessions first world) (accepts : Accepts authn request.route user.id) :
    Ends (fun _ after => Caused settings authn request first after.db)
      (Passkeys.startUserSession settings user success) world := by
  refine ends_sameSessions rfl rfl fun drawn after drew => ?_
  have sameDrawn := same.trans drew
  cases drawn with
  | none => exact sameDrawn.caused
  | some sessionID =>
      dsimp only [Program.bind]
      cases expiry : settings.sessionExpiry with
      | none => exact sameDrawn.caused
      | some duration =>
          refine ⟨trivial, fun circumstance => ?_⟩
          have sameTimed : SameSessions first (PortalCall.execute .now circumstance after).2 :=
            sameDrawn.trans (sameSessions_execute rfl rfl circumstance)
          have notPast : first.clock ≤ (PortalCall.execute .now circumstance after).1 :=
            sameTimed.clock
          generalize (PortalCall.execute .now circumstance after).1 = current at notPast ⊢
          generalize (PortalCall.execute .now circumstance after).2 = timed at sameTimed ⊢
          have caused (moment : Moment) : Caused settings authn request first (Query.execute moment
              (.auth (.createUserSession sessionID user.id (current + duration))) timed.db).2 :=
            createUserSession_caused sameTimed accepts expiry notPast moment
          refine ensures_query trivial (fun last effect => ?_) fun moment last executed => ?_
          · show Caused settings authn request first last.db
            rcases effect with kept | ⟨moment, executed⟩
            · rw [kept]
              exact sameTimed.caused
            · rw [executed]
              exact caused moment
          · have isCaused := caused moment
            rw [← executed] at isCaused
            cases (Query.execute moment (.auth (.createUserSession sessionID user.id
                (current + duration))) timed.db).1 with
            | error err => exact isCaused
            | ok _ => exact ⟨trivial, fun _ => isCaused⟩

/-- A finished ceremony, up to the check of the library. -/
theorem ceremony_caused {key : String} {check : Passkeys.PasskeyUser → Passkeys.SessionData →
      Int → Replies}
    (checks : ∀ user session current (after : World), SameSessions first after →
      Ends (fun _ last => Caused settings authn request first last.db) (check user session current)
        after)
    (same : SameSessions first world) :
    Ends (fun _ after => Caused settings authn request first after.db) (do
      match ← Passkeys.getSession key with
      | none => return [.msg 401 "invalid or expired session"]
      | some session =>
          match ← Passkeys.userOfSession session.userID with
          | .error err => return [Passkeys.creatingUserFailed err]
          | .ok user =>
              let current ← timeNow
              check user session current) world := by
  apply ensures_bind.mpr
  apply (sameSessions_of_plain (plain_of_calm (Passkeys.getSession_calm key))).imp fun _ _ => id
  intro found after read
  cases found with
  | none => exact (same.trans read).caused
  | some session =>
      apply ensures_bind.mpr
      apply (sameSessions_of_plain (plain_of_calm (Passkeys.userOfSession_calm session.userID))).imp fun _ _ => id
      intro resolved last looked
      have sameLast := (same.trans read).trans looked
      cases resolved with
      | error err => exact sameLast.caused
      | ok user =>
          refine ends_sameSessions rfl rfl fun current timed later => ?_
          exact checks user session current timed (sameLast.trans later)

theorem registration_caused {cookies : Cookies} (key : String) (response : Response)
    (same : SameSessions first world) :
    Ends (fun _ after => Caused settings authn ⟨cookies, .passkey (.registerFinish key response)⟩
      first after.db) (Passkeys.finishRegistration settings authn key response) world := by
  refine ceremony_caused (fun user session current after sameAfter => ?_) same
  cases accepted : authn.finishRegistration user session response current with
  | error text => exact sameAfter.caused
  | ok credential =>
      refine ends_sameSessions rfl rfl fun created last stored => ?_
      cases created with
      | error err => exact (sameAfter.trans stored).caused
      | ok _ =>
          refine ends_sameSessions rfl rfl fun _ deleted removed => ?_
          exact startUserSession_caused _ ((sameAfter.trans stored).trans removed)
            (.registration accepted)

theorem login_caused {cookies : Cookies} (key : String) (response : Response)
    (same : SameSessions first world) :
    Ends (fun _ after => Caused settings authn ⟨cookies, .passkey (.loginFinish key response)⟩
      first after.db) (Passkeys.finishLogin settings authn key response) world := by
  refine ceremony_caused (fun user session current after sameAfter => ?_) same
  cases accepted : authn.finishLogin user session response current with
  | error text => exact sameAfter.caused
  | ok credential =>
      refine ends_sameSessions rfl rfl fun updated last stored => ?_
      cases updated with
      | error err => exact (sameAfter.trans stored).caused
      | ok _ =>
          refine ends_sameSessions rfl rfl fun _ deleted removed => ?_
          exact startUserSession_caused _ ((sameAfter.trans stored).trans removed) (.login accepted)

theorem logout_caused {cookies : Cookies} :
    Ends (fun _ after => Caused settings authn (⟨cookies, .passkey .logout⟩ : Request Response)
      world after.db) (Passkeys.logout cookies) world := by
  unfold Passkeys.logout
  have nothing : Caused settings authn (⟨cookies, .passkey .logout⟩ : Request Response) world
      world.db := ⟨.nothing, .nothing, rfl⟩
  cases inCookie : cookies.session with
  | none => exact nothing
  | some sessionID =>
      refine ⟨trivial, fun circumstance => ?_⟩
      have revoked : Caused settings authn (⟨cookies, .passkey .logout⟩ : Request Response) world
          { world.db with
            userSessions := world.db.userSessions.remove (·.sessionID = sessionID) } :=
        ⟨.revoke sessionID, .revoke rfl inCookie, sessions_remove sessionID⟩
      show Caused _ _ _ _ (PortalCall.execute _ circumstance world).2.db
      simp only [PortalCall.execute]
      cases circumstance.fault with
      | refused => exact nothing
      | none | lost => exact revoked

/-- A request changes the sessions by what it may cause, whatever fails. -/
theorem serve_caused (settings : Settings) (authn : Passkeys.WebAuthn Response)
    (request : Request Response) (settled : Settled world) :
    Ends (fun _ after => Caused settings authn request world after.db)
      (serve settings authn request) world := by
  obtain ⟨cookies, route⟩ := request
  have unchanged : ∀ {program : Replies},
      Orderly (fun _ after => after.saved = none) program world →
      Ends (fun _ after => Caused settings authn (⟨cookies, route⟩ : Request Response) world after.db)
        program world := by
    intro program orderly
    apply (Orderly.hasSessions orderly (.of_closed settled.closed)).imp fun _ _ => id
    intro replies after has
    refine ⟨.nothing, .nothing, funext fun sessionID => ?_⟩
    rw [Database.sessions, has.db]
    rfl
  cases route with
  | project route =>
      exact unchanged (serveProject_orderly cookies route settled.coherentWorld settled.closed)
  | user route => exact unchanged (serveUser_orderly cookies route settled.closed)
  | passkey route =>
      have same : SameSessions world world := ⟨rfl, le_rfl⟩
      cases route with
      | registerStart body =>
          exact (sameSessions_of_plain (plain_of_calm (Passkeys.beginRegistration_calm settings authn body))).imp
            (fun _ _ => id) fun _ _ same => same.caused
      | registerFinish key response => exact registration_caused key response same
      | loginStart body =>
          exact (sameSessions_of_plain (plain_of_calm (Passkeys.beginLogin_calm authn body))).imp
            (fun _ _ => id) fun _ _ same => same.caused
      | loginFinish key response => exact login_caused key response same
      | logout => exact logout_caused

end Ceremonies

/-! ### Who is let through -/

section Authentication

variable {Response : Type} {settings : Settings} {authn : Passkeys.WebAuthn Response}
variable {first world : World} {steps : List (RunStep Response)}

/-- The session of the cookie is valid and stands for the user. -/
def Cookies.StandsFor (cookies : Cookies) (userID : Bytes) (world : World) : Prop :=
  ∃ sessionID expiresAt, cookies.session = some sessionID ∧
    world.db.sessions sessionID = some (userID, expiresAt) ∧ world.clock < expiresAt

theorem authMiddleware_of_session {cookies : Cookies} {path sessionID : String}
    {session : UserSession} {user : User} (inCookie : cookies.session = some sessionID)
    (isSession : (world.db.userSessions.find? fun row =>
      row.sessionID = sessionID ∧ world.clock < row.expiresAt) = some session)
    (isUser : world.db.user? session.userID = some user) :
    ((authMiddleware cookies path).runAlone PortalCall.execute (fun _ => {}) world).1 =
      .ok { userID := session.userID, userName := user.name, project := none } := by
  simp only [Bool.decide_and] at isSession
  unfold authMiddleware getUserSession
  simp [inCookie, runAlone, PortalCall.execute, Query.execute, AuthQuery.execute, oneRow, isSession,
    isUser]

theorem authenticates_iff (coherent : Coherent world.db) (cookies : Cookies) (path : String)
    (userID : Bytes) : Authenticates cookies path userID world ↔ cookies.StandsFor userID world := by
  constructor
  · rintro ⟨circumstances, c, passes, rfl⟩
    have authenticates : Ends _ _ world := authMiddleware_ends cookies path
    have isOf := authenticates.ends circumstances
    obtain ⟨row, member, inCookie, isUser, valid⟩ := (isOf.2 c passes).1
    exact ⟨row.sessionID, row.expiresAt, inCookie, sessions_eq_some_iff.mpr (isUser ▸ member), valid⟩
  · rintro ⟨sessionID, expiresAt, inCookie, isGrant, valid⟩
    have member := sessions_eq_some_iff.mp isGrant
    obtain ⟨user, isMember, isID⟩ := coherent.userSessions _ member
    have isSession : (world.db.userSessions.find? fun row =>
        row.sessionID = sessionID ∧ world.clock < row.expiresAt) =
          some ⟨sessionID, userID, expiresAt⟩ := by
      refine Table.find?_eq_some (fun first second => ?_) member (decide_eq_true ⟨rfl, valid⟩) ?_
      · simp only [UserSession.conflicts, eq_comm]
      · intro other wanted
        exact decide_eq_true (of_decide_eq_true wanted).1
    have isUser : (world.db.user? userID).isSome :=
      List.find?_isSome.mpr ⟨user, isMember, decide_eq_true isID⟩
    obtain ⟨found, isFound⟩ := Option.isSome_iff_exists.mp isUser
    exact ⟨_, _, authMiddleware_of_session inCookie isSession isFound, rfl⟩

/-- The sessions after a run are those that the events of its requests leave. -/
theorem sessions_of_ran (settled : Settled first)
    (ran : Ran settings authn (fun _ _ => True) first steps world) :
    Settled world ∧ ∃ events, CauseEach settings authn steps events ∧
      world.db.sessions = TokenEvent.after first.db.sessions events := by
  induction ran with
  | start => exact ⟨settled, [], .nil, rfl⟩
  | @next steps world served before _ ih =>
      obtain ⟨settledBefore, events, caused, sessions⟩ := ih
      apply And.intro (settledBefore.serve served).2
      obtain ⟨event, causes, changed⟩ :=
        (serve_caused settings authn served.request settledBefore).ends served.circumstances
      refine ⟨events ++ [event], ?_, ?_⟩
      · exact List.rel_append caused (.cons causes .nil)
      · rw [TokenEvent.after_snoc, ← sessions]
        exact changed

/-- Without users and projects. -/
def emptyWorld : World :=
  { oneFunctionWorld with db := .empty }

theorem emptyWorld_settled : Settled emptyWorld :=
  ⟨coherent_empty, rfl⟩

/-- The two requests of a registration. -/
def startSignUp : Served (Bytes × Bytes) where
  request := ⟨⟨none, none⟩, .passkey (.registerStart (some "a"))⟩
  circumstances _ := { text := "key", data := [1, 2] }

def finishSignUp : Served (Bytes × Bytes) where
  request := ⟨⟨none, none⟩, .passkey (.registerFinish "key" ([7], [1, 2]))⟩
  circumstances _ := { text := "session" }

def signingUp : World :=
  (startSignUp.run exampleSettings Passkeys.keyAuthn emptyWorld).2

def signedUp : World :=
  (finishSignUp.run exampleSettings Passkeys.keyAuthn signingUp).2

end Authentication

end Portal

end Litefunctions
