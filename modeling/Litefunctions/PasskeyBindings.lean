import Litefunctions.ChallengeSessions
import Litefunctions.PortalRoutes

/-!
# What binds passkeys to users

The first request of a ceremony takes any user name, and no request of a
ceremony looks at a user session.  What binds a credential and a user session
to a user is the challenge session that the second request names and the check
of the library: both are stored only for the user of that challenge session,
and only if the response answers its challenge.
-/

namespace Litefunctions

namespace Portal

namespace Passkeys

open Program Event PortalCall

variable {Response : Type}

/-! ### Requests -/

/-- A request to a passkey route. -/
structure PasskeyRequest (Response : Type) where
  cookies : Cookies
  route : PasskeyRoute Response

/-- The key and the response of a request that finishes a ceremony. -/
def finish? : PasskeyRoute Response → Option (String × Response)
  | .registerFinish key response => some (key, response)
  | .loginFinish key response => some (key, response)
  | _ => none

def isRegistration : PasskeyRoute Response → Bool
  | .registerFinish _ _ => true
  | _ => false

/-- The requests of all clients, served at the same time. -/
def ceremonies (settings : Settings) (authn : WebAuthn Response)
    (requests : Nat → PasskeyRequest Response) (world : World) : Finishing where
  shared := world
  program index := (requests index).route.handle settings authn (requests index).cookies

/-- `proves challenge credentialID response` says that the response proves
possession of the credential for the challenge.  The library accepts a response
only for the user of the session, and a login only with a credential of the
user. -/
structure Verifies (authn : WebAuthn Response) (proves : Bytes → Bytes → Response → Prop) :
    Prop where
  registration : ∀ user session response current credential,
    authn.finishRegistration user session response current = .ok credential →
      user.id = session.userID ∧ proves session.challenge credential.id response
  login : ∀ user session response current credential,
    authn.finishLogin user session response current = .ok credential →
      user.id = session.userID ∧ (∃ known ∈ user.creds, known.id = credential.id) ∧
        proves session.challenge credential.id response

/-! ### Credentials and user sessions -/

def HasCredential (db : Database) (userID credentialID : Bytes) : Prop :=
  ∃ row ∈ db.credentials.rows, row.id = credentialID ∧ row.userID = userID

instance decidableHasCredential (db : Database) (userID credentialID : Bytes) :
    Decidable (HasCredential db userID credentialID) :=
  inferInstanceAs (Decidable (∃ row ∈ db.credentials.rows, _))

/-- The event stores a credential of the user. -/
def StoresCredential (userID credentialID : Bytes) (event : PortalEvent) : Prop :=
  HasCredential event.after.db userID credentialID ∧
    ¬ HasCredential event.before.db userID credentialID

instance decidableStoresCredential (userID credentialID : Bytes) (event : PortalEvent) :
    Decidable (StoresCredential userID credentialID event) :=
  inferInstanceAs (Decidable (_ ∧ ¬ _))

/-- The event creates a user session of the user. -/
def CreatesSession (userID : Bytes) (event : PortalEvent) : Prop :=
  ∃ row ∈ event.after.db.userSessions.rows, row.userID = userID ∧
    row ∉ event.before.db.userSessions.rows

instance decidableCreatesSession (userID : Bytes) (event : PortalEvent) :
    Decidable (CreatesSession userID event) :=
  inferInstanceAs (Decidable (∃ row ∈ event.after.db.userSessions.rows, _ ∧ ¬ _))

/-- The request carries a session of the user that is valid now. -/
def CarriesSession (userID : Bytes) (request : PasskeyRequest Response) (world : World) : Prop :=
  ∃ sessionID, request.cookies.session = some sessionID ∧
    ∃ row ∈ world.db.userSessions.rows, row.sessionID = sessionID ∧ row.userID = userID ∧
      world.clock < row.expiresAt

/-- The request has read a challenge session of the user, and its response
proves possession of the credential for that challenge. -/
def Proved (proves : Bytes → Bytes → Response → Prop) (request : PasskeyRequest Response)
    (history : PortalHistory) (userID credentialID : Bytes) : Prop :=
  ∃ key response session, finish? request.route = some (key, response) ∧
    ⟨.query (.auth (.getSession key)), .ok session⟩ ∈ history ∧ session.userID = userID ∧
      proves session.challenge credentialID response

/-- Once a user has a credential, another one is stored only by a request with a
valid session of the user. -/
def GuardsCredentials (requests : Nat → PasskeyRequest Response) (events : List PortalEvent) : Prop :=
  ∀ event ∈ events, ∀ userID credentialID, StoresCredential userID credentialID event →
    (∃ other, HasCredential event.before.db userID other) →
      CarriesSession userID (requests event.pid) event.before

/-- A user session is created only for a request that proved possession of a
credential that the user had. -/
def GuardsSessions (proves : Bytes → Bytes → Response → Prop)
    (requests : Nat → PasskeyRequest Response) (events : List PortalEvent) : Prop :=
  AtEvery (fun early event => ∀ userID, CreatesSession userID event →
    ∃ credentialID, Proved proves (requests event.pid) (own event.pid early) userID credentialID ∧
      HasCredential event.before.db userID credentialID) events

/-- A credential is stored only by a registration that proved possession of it
for a challenge of the user, whoever has asked for the challenge. -/
def BindsCredentials (proves : Bytes → Bytes → Response → Prop)
    (requests : Nat → PasskeyRequest Response) (events : List PortalEvent) : Prop :=
  AtEvery (fun early event => ∀ userID credentialID, StoresCredential userID credentialID event →
    isRegistration (requests event.pid).route = true ∧
      Proved proves (requests event.pid) (own event.pid early) userID credentialID) events

/-- A user session is created only for a request that proved possession of a
credential for a challenge of the user, and the user has the credential unless
the request registered one that another user had. -/
def BindsSessions (proves : Bytes → Bytes → Response → Prop)
    (requests : Nat → PasskeyRequest Response) (events : List PortalEvent) : Prop :=
  AtEvery (fun early event => ∀ userID, CreatesSession userID event →
    ∃ credentialID, Proved proves (requests event.pid) (own event.pid early) userID credentialID ∧
      (HasCredential event.before.db userID credentialID ∨
        isRegistration (requests event.pid).route = true ∧
          ∃ other, HasCredential event.before.db other credentialID)) events

/-! ### The calls of a request -/

/-- Calls that store no credential and create no user session. -/
def Ordinary : PortalCall → Prop
  | .query (.auth (.createCredential _)) => False
  | .query (.auth (.createUserSession _ _ _)) => False
  | .query (.auth _) => True
  | .drawSessionID | .drawKey | .drawChallenge | .now => True
  | _ => False

/-- The request has read the row of its challenge session. -/
def ReadSession (key : String) (session : WebauthnSession) (history : PortalHistory) : Prop :=
  ⟨.query (.auth (.getSession key)), .ok session⟩ ∈ history

/-- The credentials of the resolved user were read from the database. -/
def Listed (user : PasskeyUser) (history : PortalHistory) : Prop :=
  ∀ known ∈ user.creds, ∃ rows : List Credential,
    ⟨.query (.auth (.getCredentialsForUser user.id)), .ok rows⟩ ∈ history ∧
      ∃ row ∈ rows, row.id = known.id

variable {authn : WebAuthn Response}

/-- The library has accepted the response of the request, for this user. -/
inductive Accepted (authn : WebAuthn Response) (history : PortalHistory) (user : PasskeyUser) :
    PasskeyRoute Response → WebCredential → Prop
  | registration (key : String) (response : Response) (session : WebauthnSession) (current : Int)
      (credential : WebCredential) (read : ReadSession key session history)
      (accepts : authn.finishRegistration user (sessionData session) response current =
        .ok credential) :
      Accepted authn history user (.registerFinish key response) credential
  | login (key : String) (response : Response) (session : WebauthnSession) (current : Int)
      (credential : WebCredential) (read : ReadSession key session history)
      (accepts : authn.finishLogin user (sessionData session) response current = .ok credential)
      (listed : Listed user history) :
      Accepted authn history user (.loginFinish key response) credential

/-- The calls of a request, given what was answered to it. -/
def CeremonyCall (authn : WebAuthn Response) (route : PasskeyRoute Response)
    (history : PortalHistory) : PortalCall → Prop
  | .query (.auth (.createCredential row)) =>
      isRegistration route = true ∧ ∃ user credential, Accepted authn history user route credential ∧
        row = credentialRow user.id credential
  | .query (.auth (.createUserSession _ userID _)) =>
      ∃ user credential, Accepted authn history user route credential ∧ userID = user.id ∧
        (isRegistration route = true →
          ⟨.query (.auth (.createCredential (credentialRow user.id credential))), .ok ()⟩ ∈ history)
  | other => Ordinary other

theorem Ordinary.ceremonyCall {call : PortalCall} (ordinary : Ordinary call)
    (route : PasskeyRoute Response) (history : PortalHistory) :
    CeremonyCall authn route history call := by
  unfold CeremonyCall
  split
  · exact ordinary.elim
  · exact ordinary.elim
  · exact ordinary

theorem Accepted.mono {early late : PortalHistory} {user : PasskeyUser}
    {route : PasskeyRoute Response} {credential : WebCredential}
    (accepted : Accepted authn early user route credential)
    (grows : ∀ answered ∈ early, answered ∈ late) :
    Accepted authn late user route credential := by
  cases accepted with
  | registration key response session current credential read accepts =>
      exact .registration key response session current credential (grows _ read) accepts
  | login key response session current credential read accepts listed =>
      refine .login key response session current credential (grows _ read) accepts ?_
      intro known member
      obtain ⟨rows, answered, found⟩ := listed known member
      exact ⟨rows, grows _ answered, found⟩

section Calls

variable {route : PasskeyRoute Response} {history : PortalHistory}

theorem getSession_along (token : String) :
    (getSession token).Along (CeremonyCall authn route)
      (fun after found => ∀ data, found = some data →
        ∃ row, data = sessionData row ∧ ReadSession token row after) history := by
  apply And.intro trivial
  intro found
  cases found with
  | error err => exact fun data isSome => by cases isSome
  | ok row =>
      intro data isSome
      exact ⟨row, (Option.some.inj isSome).symm, List.mem_append_right _ List.mem_cons_self⟩

theorem getUser_along (userName : String) :
    (getUser userName).Along (CeremonyCall authn route)
      (fun after found => history <+: after ∧ ∀ user, found = .ok user → Listed user after)
      history := by
  apply Along.extends
  apply And.intro trivial
  intro found
  cases found with
  | error err =>
      intro user isOk
      cases isOk
  | ok u =>
      apply And.intro trivial
      intro listed
      cases listed with
      | error err =>
          intro user isOk
          cases isOk
      | ok rows =>
          intro user isOk known member
          obtain rfl := Except.ok.inj isOk
          obtain ⟨row, rowMember, rfl⟩ := List.mem_map.mp member
          exact ⟨rows, List.mem_append_right _ List.mem_cons_self, row, rowMember, rfl⟩

theorem createUser_along (userName : String) :
    (createUser userName).Along (CeremonyCall authn route)
      (fun after found => history <+: after ∧ ∀ user, found = .ok user → Listed user after)
      history := by
  apply Along.extends
  apply And.intro trivial
  intro created
  cases created with
  | error err =>
      intro user isOk
      cases isOk
  | ok _ =>
      intro user isOk known member
      obtain rfl := Except.ok.inj isOk
      cases member

theorem getOrCreateUser_along (userName : String) :
    (getOrCreateUser userName).Along (CeremonyCall authn route)
      (fun after found => history <+: after ∧ ∀ user, found = .ok user → Listed user after)
      history := by
  refine along_bind.mpr ((getUser_along userName).imp (fun _ _ => id) ?_)
  rintro after (err | existing) ⟨grows, listed⟩
  · apply (createUser_along userName).imp (fun _ _ => id)
    rintro late found ⟨growsLate, listedLate⟩
    exact ⟨grows.trans growsLate, listedLate⟩
  · apply And.intro grows
    intro user isOk
    obtain rfl := Except.ok.inj isOk
    exact listed _ rfl

theorem userOfSession_along (id : Bytes) :
    (userOfSession id).Along (CeremonyCall authn route)
      (fun after found => history <+: after ∧ ∀ user, found = .ok user → Listed user after)
      history := by
  unfold userOfSession
  cases textOf id with
  | none => exact ⟨List.prefix_rfl, fun user isOk => by cases isOk⟩
  | some userName => exact getOrCreateUser_along userName

/-- A finished ceremony goes on to create a user session of the user. -/
theorem startUserSession_ceremony (settings : Settings) (user : PasskeyUser) (success : String)
    {credential : WebCredential} (accepted : Accepted authn history user route credential)
    (created : isRegistration route = true →
      ⟨.query (.auth (.createCredential (credentialRow user.id credential))), .ok ()⟩ ∈ history) :
    (startUserSession settings user success).Along (CeremonyCall authn route) (fun _ _ => True)
      history := by
  apply And.intro trivial
  intro drawn
  cases drawn with
  | none => trivial
  | some sessionID =>
      dsimp only
      cases settings.sessionExpiry with
      | none => trivial
      | some duration =>
          refine ⟨trivial, fun current => ⟨⟨user, credential, ?_, rfl, ?_⟩, fun stored => ?_⟩⟩
          · apply accepted.mono
            intro answered member
            simp [member]
          · intro isRegistration
            simp [created isRegistration]
          · cases stored with
            | error err => trivial
            | ok _ => exact ⟨trivial, fun _ => trivial⟩

/-- Both ceremonies end alike once the credential is written. -/
theorem afterWriting_ceremony (settings : Settings) (user : PasskeyUser) (success key : String)
    {credential : WebCredential} (accepted : Accepted authn history user route credential)
    (created : isRegistration route = true →
      ⟨.query (.auth (.createCredential (credentialRow user.id credential))), .ok ()⟩ ∈ history) :
    (authQuery (.deleteSession key) >>= fun _ => startUserSession settings user success).Along
      (CeremonyCall authn route) (fun _ _ => True) history := by
  apply And.intro trivial
  intro deleted
  have acceptedLater := accepted.mono fun answered member =>
    List.mem_append_left [⟨.query (.auth (.deleteSession key)), deleted⟩] member
  apply startUserSession_ceremony settings user success acceptedLater
  intro isRegistration
  exact List.mem_append_left _ (created isRegistration)

theorem finishRegistration_ceremony (settings : Settings) (key : String) (response : Response) :
    (finishRegistration settings authn key response).Along
      (CeremonyCall authn (.registerFinish key response)) (fun _ _ => True) [] := by
  refine along_bind.mpr ((getSession_along key).imp (fun _ _ => id) fun history found reads => ?_)
  cases found with
  | none => trivial
  | some data =>
      obtain ⟨session, rfl, read⟩ := reads data rfl
      refine along_bind.mpr ((userOfSession_along _).imp (fun _ _ => id) ?_)
      rintro history (err | user) ⟨grows, -⟩
      · trivial
      apply And.intro trivial
      intro current
      dsimp only [Program.bind]
      split
      · trivial
      · next credential accepts =>
          have accepted : Accepted authn (history ++ [⟨.now, current⟩]) user
              (.registerFinish key response) credential :=
            .registration key response session current credential
              (List.mem_append_left _ (grows.subset read)) accepts
          refine ⟨⟨rfl, user, credential, accepted, rfl⟩, fun written => ?_⟩
          cases written with
          | error err => trivial
          | ok _ =>
              have acceptedLater := accepted.mono fun answered member =>
                List.mem_append_left
                  [⟨.query (.auth (.createCredential (credentialRow user.id credential))), .ok ()⟩]
                  member
              apply afterWriting_ceremony settings user _ key acceptedLater
              intro _
              exact List.mem_append_right _ List.mem_cons_self

theorem finishLogin_ceremony (settings : Settings) (key : String) (response : Response) :
    (finishLogin settings authn key response).Along
      (CeremonyCall authn (.loginFinish key response)) (fun _ _ => True) [] := by
  refine along_bind.mpr ((getSession_along key).imp (fun _ _ => id) fun history found reads => ?_)
  cases found with
  | none => trivial
  | some data =>
      obtain ⟨session, rfl, read⟩ := reads data rfl
      refine along_bind.mpr ((userOfSession_along _).imp (fun _ _ => id) ?_)
      rintro history (err | user) ⟨grows, listed⟩
      · trivial
      apply And.intro trivial
      intro current
      dsimp only [Program.bind]
      split
      · trivial
      · next credential accepts =>
          have accepted : Accepted authn history user (.loginFinish key response) credential :=
            .login key response session current credential (grows.subset read) accepts
              (listed user rfl)
          have acceptedNow := accepted.mono fun answered member =>
            List.mem_append_left [⟨.now, current⟩] member
          apply And.intro trivial
          intro written
          cases written with
          | error err => trivial
          | ok _ =>
              apply afterWriting_ceremony settings user _ key (acceptedNow.mono ?_)
              · rintro ⟨⟩
              · intro answered member
                exact List.mem_append_left _ member

/-- Requests that begin a ceremony make ordinary calls only. -/
theorem beginRegistration_ceremony (settings : Settings) (body : Option String) :
    (beginRegistration settings authn body).Along (CeremonyCall authn route) (fun _ _ => True)
      history := by
  unfold beginRegistration
  cases body with
  | none => trivial
  | some username =>
      refine along_bind.mpr ((getOrCreateUser_along username).imp (fun _ _ => id) ?_)
      rintro after (err | user) -
      · trivial
      apply And.intro trivial
      intro challenge
      dsimp only [Program.bind]
      split
      · trivial
      split
      · trivial
      refine ⟨trivial, fun current => ⟨trivial, fun t => ⟨trivial, fun saved => ?_⟩⟩⟩
      cases saved <;> trivial

theorem beginLogin_ceremony (body : Option String) :
    (beginLogin authn body).Along (CeremonyCall authn route) (fun _ _ => True) history := by
  unfold beginLogin
  cases body with
  | none => trivial
  | some username =>
      refine along_bind.mpr ((getOrCreateUser_along username).imp (fun _ _ => id) ?_)
      rintro after (err | user) -
      · trivial
      apply And.intro trivial
      intro challenge
      dsimp only [Program.bind]
      split
      · trivial
      refine ⟨trivial, fun t => ⟨trivial, fun saved => ?_⟩⟩
      cases saved <;> trivial

theorem logout_ceremony (cookies : Cookies) :
    (logout cookies).Along (CeremonyCall authn route) (fun _ _ => True) history := by
  unfold logout
  cases cookies.session with
  | none => trivial
  | some sessionID => exact ⟨trivial, fun _ => trivial⟩

theorem handle_ceremony (settings : Settings) (cookies : Cookies) (route : PasskeyRoute Response) :
    (route.handle settings authn cookies).Along (CeremonyCall authn route) (fun _ _ => True)
      [] := by
  cases route with
  | registerStart body => exact beginRegistration_ceremony settings body
  | registerFinish key response => exact finishRegistration_ceremony settings key response
  | loginStart body => exact beginLogin_ceremony body
  | loginFinish key response => exact finishLogin_ceremony settings key response
  | logout => exact logout_ceremony cookies

end Calls

/-! ### What the calls do -/

/-- Credentials stay with their users. -/
def KeepsCredentials (before after : World) : Prop :=
  ∀ userID credentialID, HasCredential before.db userID credentialID →
    HasCredential after.db userID credentialID

theorem KeepsCredentials.refl (world : World) : KeepsCredentials world world :=
  fun _ _ => id

theorem KeepsCredentials.trans {first second third : World} (early : KeepsCredentials first second)
    (late : KeepsCredentials second third) : KeepsCredentials first third :=
  fun userID credentialID has => late userID credentialID (early userID credentialID has)

section Queries

variable {db : Database} {userID credentialID : Bytes}

theorem hasCredential_insert {credential : Credential}
    {credentials : Table Credential Credential.conflicts}
    (inserted : db.credentials.insert credential = some credentials) :
    HasCredential { db with credentials } userID credentialID ↔
      HasCredential db userID credentialID ∨
        credential.id = credentialID ∧ credential.userID = userID := by
  constructor
  · rintro ⟨row, member, isID, isUser⟩
    rcases (Table.mem_insert inserted).mp member with old | rfl
    · exact .inl ⟨row, old, isID, isUser⟩
    · exact .inr ⟨isID, isUser⟩
  · rintro (⟨row, member, same⟩ | same)
    · exact ⟨row, (Table.mem_insert inserted).mpr (.inl member), same⟩
    · exact ⟨credential, (Table.mem_insert inserted).mpr (.inr rfl), same⟩

theorem hasCredential_modify {selected : Credential → Bool} {credential : Credential}
    {credentials : Table Credential Credential.conflicts}
    (modified : db.credentials.modify selected (fun row =>
      { credential with id := row.id, userID := row.userID }) = some credentials) :
    HasCredential { db with credentials } userID credentialID ↔
      HasCredential db userID credentialID := by
  have rows := Table.rows_modify modified
  constructor
  · rintro ⟨row, member, same⟩
    rw [show ({ db with credentials } : Database).credentials.rows = _ from rows] at member
    obtain ⟨old, oldMember, rfl⟩ := List.mem_map.mp member
    refine ⟨old, oldMember, ?_⟩
    split at same <;> exact same
  · rintro ⟨row, member, same⟩
    refine ⟨_, rows ▸ List.mem_map_of_mem member, ?_⟩
    split <;> exact same

/-- Only a statement that creates it stores a credential of a user. -/
theorem hasCredential_execute (query : AuthQuery) (moment : Moment) :
    (HasCredential db userID credentialID →
        HasCredential (query.execute moment db).2 userID credentialID) ∧
      (HasCredential (query.execute moment db).2 userID credentialID →
        HasCredential db userID credentialID ∨
          ∃ row, query = .createCredential row ∧ row.id = credentialID ∧ row.userID = userID) := by
  cases query with
  | createCredential credential =>
      simp only [AuthQuery.execute]
      split
      · exact ⟨id, .inl⟩
      split
      · exact ⟨id, .inl⟩
      · next credentials inserted =>
          apply And.intro (fun has => (hasCredential_insert inserted).mpr (.inl has))
          intro has
          rcases (hasCredential_insert inserted).mp has with old | new
          · exact .inl old
          · exact .inr ⟨credential, rfl, new⟩
  | updateCredential credential =>
      simp only [AuthQuery.execute]
      split
      · exact ⟨id, .inl⟩
      · next credentials modified =>
          apply And.intro (hasCredential_modify modified).mpr
          intro has
          exact .inl ((hasCredential_modify modified).mp has)
  | createUser id name displayName =>
      simp only [AuthQuery.execute]
      split
      · exact ⟨fun has => has, .inl⟩
      · split <;> exact ⟨fun has => has, .inl⟩
  | saveSession session =>
      simp only [AuthQuery.execute]
      split <;> exact ⟨id, .inl⟩
  | createUserSession sessionID userID expiresAt =>
      simp only [AuthQuery.execute]
      split
      · exact ⟨id, .inl⟩
      · split <;> exact ⟨id, .inl⟩
  | _ => exact ⟨id, .inl⟩

/-- A credential that was created without an error is stored, if for another
user then since before. -/
theorem hasCredential_created {credential : Credential} {moment : Moment}
    (created : ((AuthQuery.createCredential credential).execute moment db).1 = .ok ()) :
    HasCredential ((AuthQuery.createCredential credential).execute moment db).2 credential.userID
        credential.id ∨
      ∃ other, HasCredential db other credential.id := by
  simp only [AuthQuery.execute] at created ⊢
  split at created
  · cases created
  · next known =>
      rw [if_neg known]
      cases inserted : db.credentials.insert credential with
      | none =>
          obtain ⟨other, member, conflict⟩ := Table.insert_eq_none_iff.mp inserted
          have sameID : other.id = credential.id := of_decide_eq_true conflict
          exact .inr ⟨other.userID, other, member, sameID, rfl⟩
      | some credentials => exact .inl ((hasCredential_insert inserted).mpr (.inr ⟨rfl, rfl⟩))

/-- Only a statement that creates it adds a user session. -/
theorem mem_userSessions_execute (query : AuthQuery) (moment : Moment) {row : UserSession}
    (member : row ∈ (query.execute moment db).2.userSessions.rows) :
    row ∈ db.userSessions.rows ∨
      ∃ sessionID expiresAt, query = .createUserSession sessionID row.userID expiresAt := by
  cases query with
  | createUserSession sessionID userID expiresAt =>
      simp only [AuthQuery.execute] at member
      split at member
      · exact .inl member
      split at member
      · exact .inl member
      · next userSessions inserted =>
          rcases (Table.mem_insert inserted).mp member with old | rfl
          · exact .inl old
          · exact .inr ⟨sessionID, expiresAt, rfl⟩
  | deleteUserSession sessionID => exact .inl (Table.mem_remove.mp member).1
  | createCredential credential =>
      simp only [AuthQuery.execute] at member
      split at member
      · exact .inl member
      · split at member <;> exact .inl member
  | updateCredential credential =>
      simp only [AuthQuery.execute] at member
      split at member <;> exact .inl member
  | createUser id name displayName =>
      simp only [AuthQuery.execute] at member
      split at member
      · exact .inl member
      · split at member <;> exact .inl member
  | saveSession session =>
      simp only [AuthQuery.execute] at member
      split at member <;> exact .inl member
  | _ => exact .inl member

end Queries

/-- A call leaves the database as it is or executes a statement of the store. -/
theorem CeremonyCall.db_execute {route : PasskeyRoute Response} {history : PortalHistory}
    {call : PortalCall} (isCall : CeremonyCall authn route history call)
    (circumstance : Circumstance) (world : World) :
    (call.execute circumstance world).2.db = world.db ∨
      ∃ query moment, call = .query (.auth query) ∧
        (call.execute circumstance world).2.db = (query.execute moment world.db).2 := by
  cases call with
  | query statement =>
      cases statement with
      | auth query =>
          simp only [PortalCall.execute]
          cases circumstance.fault with
          | refused => exact .inl rfl
          | none => exact .inr ⟨query, _, rfl, rfl⟩
          | lost => exact .inr ⟨query, _, rfl, rfl⟩
      | _ => exact False.elim isCall
  | drawSessionID => exact .inl rfl
  | drawKey => exact .inl rfl
  | drawChallenge => exact .inl rfl
  | now => exact .inl rfl
  | _ => exact False.elim isCall

/-! ### Runs -/

section Runs

variable {settings : Settings} {requests : Nat → PasskeyRequest Response} {world : World}
variable {events early late : List PortalEvent} {event : PortalEvent} {last : Finishing}
variable {userID credentialID : Bytes}

theorem ceremonyCall_of_ran
    (ran : Processes.Ran step (ceremonies settings authn requests world) (early ++ event :: late)
      last) :
    CeremonyCall authn (requests event.pid).route (own event.pid early) event.request :=
  ran.assertion (handle_ceremony settings (requests event.pid).cookies (requests event.pid).route)

/-- What a step of a run does to the database. -/
theorem db_after
    (ran : Processes.Ran step (ceremonies settings authn requests world) (early ++ event :: late)
      last) :
    event.after.db = event.before.db ∨
      ∃ query moment, event.request = .query (.auth query) ∧
        event.after.db = (query.execute moment event.before.db).2 := by
  obtain ⟨circumstance, executed⟩ := ran.executed (show event ∈ _ by simp)
  have afterEq : (event.request.execute circumstance event.before).2 = event.after :=
    congrArg Prod.snd (Option.some.inj executed)
  rw [← afterEq]
  exact (ceremonyCall_of_ran ran).db_execute circumstance event.before

theorem keepsCredentials_of_mem
    (ran : Processes.Ran step (ceremonies settings authn requests world) events last)
    (member : event ∈ events) : KeepsCredentials event.before event.after := by
  obtain ⟨early, late, rfl⟩ := List.append_of_mem member
  intro userID credentialID has
  rcases db_after ran with same | ⟨query, moment, -, afterEq⟩
  · rwa [same]
  · rw [afterEq]
    exact (hasCredential_execute query moment).1 has

/-- A credential that was there after an earlier event is there at a later one. -/
theorem hasCredential_later {earlier : PortalEvent}
    (ran : Processes.Ran step (ceremonies settings authn requests world) (early ++ event :: late)
      last)
    (member : earlier ∈ early) (has : HasCredential earlier.after.db userID credentialID) :
    HasCredential event.before.db userID credentialID := by
  obtain ⟨start, between, rfl⟩ := List.append_of_mem member
  have linked := ran.linked
  rw [List.append_assoc, List.cons_append] at linked
  obtain ⟨-, -, linked⟩ := linked_append.mp linked
  have keeps : KeepsCredentials earlier.after (Event.lastShared earlier.after between) := by
    refine (linked_append.mp linked).1.relates KeepsCredentials KeepsCredentials.refl
      KeepsCredentials.trans fun other otherMember => ?_
    exact keepsCredentials_of_mem ran (by simp [otherMember])
  rw [linked.before_eq]
  exact keeps userID credentialID has

/-- An accepted response proves possession of the credential for a challenge of
the user. -/
theorem Accepted.proved {proves : Bytes → Bytes → Response → Prop}
    (verifies : Verifies authn proves) {request : PasskeyRequest Response}
    {history : PortalHistory} {user : PasskeyUser} {credential : WebCredential}
    (accepted : Accepted authn history user request.route credential) :
    Proved proves request history user.id credential.id := by
  obtain ⟨cookies, route⟩ := request
  cases accepted with
  | registration key response session current credential read accepts =>
      obtain ⟨sameUser, proved⟩ := verifies.registration _ _ _ _ _ accepts
      exact ⟨key, response, session, rfl, read, sameUser.symm, proved⟩
  | login key response session current credential read accepts listed =>
      obtain ⟨sameUser, -, proved⟩ := verifies.login _ _ _ _ _ accepts
      exact ⟨key, response, session, rfl, read, sameUser.symm, proved⟩

/-- A login is accepted with a credential that was listed for the user. -/
theorem Accepted.known {proves : Bytes → Bytes → Response → Prop}
    (verifies : Verifies authn proves) {route : PasskeyRoute Response} {history : PortalHistory}
    {user : PasskeyUser} {credential : WebCredential}
    (accepted : Accepted authn history user route credential)
    (isLogin : isRegistration route = false) :
    Listed user history ∧ ∃ known ∈ user.creds, known.id = credential.id := by
  cases accepted with
  | registration key response session current credential read accepts => cases isLogin
  | login key response session current credential read accepts listed =>
      obtain ⟨-, known, -⟩ := verifies.login _ _ _ _ _ accepts
      exact ⟨listed, known⟩

/-- A statement that was answered without an error was executed. -/
theorem executed_of_ok {query : AuthQuery} {value : query.Value} {before after : World}
    {circumstance : Circumstance}
    (executed : step (.query (.auth query)) circumstance before = some (.ok value, after)) :
    ∃ moment, (query.execute moment before.db).1 = .ok value ∧
      after.db = (query.execute moment before.db).2 := by
  have answer := Option.some.inj executed
  simp only [PortalCall.execute] at answer
  cases fault : circumstance.fault with
  | none =>
      rw [fault] at answer
      exact ⟨_, congrArg Prod.fst answer, (congrArg (fun answer => answer.2.db) answer).symm⟩
  | refused =>
      rw [fault] at answer
      cases congrArg Prod.fst answer
  | lost =>
      rw [fault] at answer
      cases congrArg Prod.fst answer

/-- The credentials that were listed for a user are credentials of the user. -/
theorem hasCredential_of_listed {user : PasskeyUser} {known : WebCredential}
    (ran : Processes.Ran step (ceremonies settings authn requests world) (early ++ event :: late)
      last)
    (listed : Listed user (own event.pid early)) (member : known ∈ user.creds) :
    HasCredential event.before.db user.id known.id := by
  obtain ⟨rows, answered, row, rowMember, isID⟩ := listed known member
  obtain ⟨earlier, earlierMember, -, answeredEq⟩ := mem_own.mp answered
  obtain ⟨circumstance, executed⟩ :=
    ran.executed_of_answered_eq (List.mem_append_left _ earlierMember) answeredEq
  obtain ⟨moment, rowsEq, afterEq⟩ := executed_of_ok executed
  have stored : row ∈ earlier.before.db.credentials.rows.filter (·.userID = user.id) := by
    rw [show earlier.before.db.credentials.rows.filter (·.userID = user.id) = rows from
      Except.ok.inj rowsEq]
    exact rowMember
  obtain ⟨rowStored, isUser⟩ := List.mem_filter.mp stored
  apply hasCredential_later ran earlierMember
  rw [afterEq]
  exact ⟨row, rowStored, isID, of_decide_eq_true isUser⟩

/-- A credential that was created without an error is stored later. -/
theorem hasCredential_of_created {credential : Credential}
    (ran : Processes.Ran step (ceremonies settings authn requests world) (early ++ event :: late)
      last)
    (created : ⟨.query (.auth (.createCredential credential)), .ok ()⟩ ∈ own event.pid early) :
    HasCredential event.before.db credential.userID credential.id ∨
      ∃ other, HasCredential event.before.db other credential.id := by
  obtain ⟨earlier, earlierMember, -, answeredEq⟩ := mem_own.mp created
  have inRun : earlier ∈ early ++ event :: late := List.mem_append_left _ earlierMember
  obtain ⟨circumstance, executed⟩ := ran.executed_of_answered_eq inRun answeredEq
  obtain ⟨moment, isOk, afterEq⟩ := executed_of_ok executed
  rcases hasCredential_created isOk with stored | ⟨other, stored⟩
  · rw [← afterEq] at stored
    exact .inl (hasCredential_later ran earlierMember stored)
  · have kept := keepsCredentials_of_mem ran inRun other credential.id stored
    exact .inr ⟨other, hasCredential_later ran earlierMember kept⟩

variable {proves : Bytes → Bytes → Response → Prop}

theorem bindsCredentials (verifies : Verifies authn proves)
    (ran : Processes.Ran step (ceremonies settings authn requests world) events last) :
    BindsCredentials proves requests events := by
  rintro early event late rfl userID credentialID ⟨hasAfter, hadNot⟩
  rcases db_after ran with same | ⟨query, moment, requestEq, afterEq⟩
  · rw [same] at hasAfter
    exact absurd hasAfter hadNot
  · rw [afterEq] at hasAfter
    rcases (hasCredential_execute query moment).2 hasAfter with had | ⟨row, rfl, rfl, rfl⟩
    · exact absurd had hadNot
    · have isCall := ceremonyCall_of_ran ran
      rw [requestEq] at isCall
      obtain ⟨registers, user, credential, accepted, rfl⟩ := isCall
      exact ⟨registers, accepted.proved verifies⟩

theorem bindsSessions (verifies : Verifies authn proves)
    (ran : Processes.Ran step (ceremonies settings authn requests world) events last) :
    BindsSessions proves requests events := by
  rintro early event late rfl _ ⟨row, member, rfl, isNew⟩
  rcases db_after ran with same | ⟨query, moment, requestEq, afterEq⟩
  · rw [same] at member
    exact absurd member isNew
  · rw [afterEq] at member
    rcases mem_userSessions_execute query moment member with old | ⟨sessionID, expiresAt, rfl⟩
    · exact absurd old isNew
    · have isCall := ceremonyCall_of_ran ran
      rw [requestEq] at isCall
      obtain ⟨user, credential, accepted, isUser, created⟩ := isCall
      refine ⟨credential.id, isUser ▸ accepted.proved verifies, ?_⟩
      cases registers : isRegistration (requests event.pid).route with
      | true =>
          rcases hasCredential_of_created ran (created registers) with stored | stored
          · exact .inl (isUser ▸ stored)
          · exact .inr ⟨rfl, stored⟩
      | false =>
          obtain ⟨listed, known, knownMember, sameID⟩ := accepted.known verifies registers
          have has := hasCredential_of_listed ran listed knownMember
          rw [sameID, ← isUser] at has
          exact .inl has

end Runs

/-! ### Registrations for another user -/

/-- A library whose responses are a credential and a challenge. -/
def keyAuthn : WebAuthn (Bytes × Bytes) where
  beginRegistration user challenge :=
    .ok (.obj [], ⟨challenge, "lite.example", user.id, [], none, "[]", "{}", "", ""⟩)
  finishRegistration user session response _ :=
    if user.id = session.userID ∧ response.2 = session.challenge then
      .ok { aliceCredential with id := response.1 }
    else .error "Error validating challenge"
  beginLogin user challenge :=
    .ok (.obj [], ⟨challenge, "lite.example", user.id, [], none, "[]", "{}", "", ""⟩)
  finishLogin user session response _ :=
    if user.id = session.userID ∧ response.2 = session.challenge ∧
        response.1 ∈ user.creds.map (·.id) then
      .ok { aliceCredential with id := response.1 }
    else .error "Error validating challenge"

/-- The response is the credential with the challenge. -/
def AnswersWith (challenge credentialID : Bytes) (response : Bytes × Bytes) : Prop :=
  response = (credentialID, challenge)

theorem keyAuthn_verifies : Verifies keyAuthn AnswersWith := by
  constructor
  · intro user session response current credential accepts
    simp only [keyAuthn] at accepts
    split at accepts
    · next isValid =>
        obtain rfl := Except.ok.inj accepts
        exact ⟨isValid.1, Prod.ext rfl isValid.2⟩
    · cases accepts
  · intro user session response current credential accepts
    simp only [keyAuthn] at accepts
    split at accepts
    · next isValid =>
        obtain rfl := Except.ok.inj accepts
        exact ⟨isValid.1, List.mem_map.mp isValid.2.2, Prod.ext rfl isValid.2.1⟩
    · cases accepts

/-- A client without a session registers a credential for a user. -/
def registers (username : String) (credentialID : Bytes) (index : Nat) :
    PasskeyRequest (Bytes × Bytes) where
  cookies := ⟨none, none⟩
  route := if index = 0 then .registerStart (some username)
    else .registerFinish "key" (credentialID, [1, 2])

/-- The events of such a registration, where the user `a` has a credential. -/
def registration (username : String) (credentialID : Bytes) : List PortalEvent :=
  ((ceremonies aliceSettings keyAuthn (registers username credentialID)
      { loginWorld with db := { loginWorld.db with webauthnSessions := .empty } }).run step
    (List.replicate 6 (0, { text := "key", data := [1, 2] }) ++
      List.replicate 10 (1, { text := "session" }))).1

end Passkeys

end Portal

end Litefunctions
