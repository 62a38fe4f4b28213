import Litefunctions.PortalRequests

/-!
# Passkey handlers of the portal

Registration and login are ceremonies of two requests.  The first one takes a
user name from its body and stores a challenge session under a random key; the
second one names that key in a header and resolves the user of the session
again.  The WebAuthn library is a parameter of the handlers.
-/

namespace Litefunctions

namespace Portal

open Program

namespace Passkeys

/-- `webauthn.Credential`. -/
structure WebCredential where
  id : Bytes
  publicKey : Bytes
  attestationType : String
  transports : List String
  flags : Nat
  signCount : Nat
  deriving DecidableEq, Repr

/-- `auth.User`. -/
structure PasskeyUser where
  id : Bytes
  name : String
  displayName : String
  creds : List WebCredential
  deriving DecidableEq, Repr

/-- `webauthn.SessionData`; without an expiry it never expires. -/
structure SessionData where
  challenge : Bytes
  relyingPartyID : String
  userID : Bytes
  allowedCredentialIDs : List Bytes
  expires : Option Int
  credParams : String
  extensions : String
  userVerification : String
  mediation : String
  deriving DecidableEq, Repr

/-- The WebAuthn library; `Response` is what an authenticator sends to finish a
ceremony. -/
structure WebAuthn (Response : Type) where
  beginRegistration : PasskeyUser → Bytes → Except String (Json × SessionData)
  finishRegistration : PasskeyUser → SessionData → Response → Int → Except String WebCredential
  beginLogin : PasskeyUser → Bytes → Except String (Json × SessionData)
  finishLogin : PasskeyUser → SessionData → Response → Int → Except String WebCredential

/-! ### The store -/

/-- The conversion `[]byte(text)`. -/
def bytesOf (text : String) : Bytes :=
  text.toUTF8.data.toList

/-- The conversion `string(bytes)`, unless it is not UTF-8, which no statement
of the database accepts. -/
def textOf (bytes : Bytes) : Option String :=
  String.fromUTF8? ⟨bytes.toArray⟩

def convertDBCredentialToWebauthn (c : Credential) : WebCredential where
  id := c.id
  publicKey := c.publicKey
  attestationType := c.attestationType
  transports := c.transports
  flags := c.flags
  signCount := c.signCount

/-- The row of a credential of a user. -/
def credentialRow (userID : Bytes) (cred : WebCredential) : Credential where
  id := cred.id
  userID := userID
  publicKey := cred.publicKey
  attestationType := cred.attestationType
  signCount := cred.signCount
  transports := cred.transports
  flags := cred.flags

def getUser (userName : String) : PortalProgram (Except DbError PasskeyUser) := do
  match ← authQuery (.getUserByName userName) with
  | .error err => return .error err
  | .ok u =>
      match ← authQuery (.getCredentialsForUser u.id) with
      | .error err => return .error err
      | .ok creds =>
          return .ok
            { id := u.id
              name := u.name
              displayName := u.displayName
              creds := creds.map convertDBCredentialToWebauthn }

def createUser (userName : String) : PortalProgram (Except DbError PasskeyUser) := do
  match ← authQuery (.createUser (bytesOf userName) userName userName) with
  | .error err => return .error err
  | .ok _ =>
      return .ok { id := bytesOf userName, name := userName, displayName := userName, creds := [] }

/-- `GetOrCreateUser`: any failure of the lookup leads to the creation. -/
def getOrCreateUser (userName : String) : PortalProgram (Except DbError PasskeyUser) := do
  match ← getUser userName with
  | .ok existingUser => return .ok existingUser
  | .error _ => createUser userName

/-- `GetOrCreateUser(string(id))`. -/
def userOfSession (id : Bytes) : PortalProgram (Except DbError PasskeyUser) :=
  match textOf id with
  | none => return .error .invalidText
  | some userName => getOrCreateUser userName

/-- `SaveSession`.  The texts that are not marked as valid become null. -/
def saveSession (username token : String) (data : SessionData) :
    PortalProgram (Except DbError Unit) :=
  authQuery (.saveSession
    { sessionID := token
      userName := username
      challenge := data.challenge
      userID := data.userID
      allowedCredentials := data.allowedCredentialIDs
      expiresAt := data.expires
      rpID := none
      credParams := data.credParams
      extensions := data.extensions
      userVerification := none
      mediation := none })

def sessionData (row : WebauthnSession) : SessionData where
  challenge := row.challenge
  relyingPartyID := row.rpID.getD ""
  userID := row.userID
  allowedCredentialIDs := row.allowedCredentials
  expires := row.expiresAt
  credParams := row.credParams
  extensions := row.extensions
  userVerification := row.userVerification.getD ""
  mediation := row.mediation.getD ""

def getSession (token : String) : PortalProgram (Option SessionData) := do
  match ← authQuery (.getSession token) with
  | .error _ => return none
  | .ok row => return some (sessionData row)

/-! ### The handlers -/

def creatingUserFailed (err : DbError) : Reply :=
  .json 500 (.obj
    [("msg", .dbError "error creating/retrieving user: error creating new user: " err)])

variable {Response : Type}

/-- The body of a first request; `none` where it is no JSON object with a name. -/
def beginRegistration (settings : Settings) (authn : WebAuthn Response)
    (body : Option String) : Replies := do
  match body with
  | none => return [.msg 500 "internal error"]
  | some username =>
      match ← getOrCreateUser username with
      | .error err => return [creatingUserFailed err]
      | .ok user =>
          let challenge ← drawChallenge
          match authn.beginRegistration user challenge with
          | .error text => return [.msg 400 text]
          | .ok started =>
              match settings.sessionExpiry with
              | none => return [.msg 500 "internal configuration error"]
              | some expDur =>
                  let current ← timeNow
                  let t ← drawKey
                  match ← saveSession username t
                      { started.2 with expires := some (current + expDur) } with
                  | .error _ => return [.msg 500 "failed to save session"]
                  | .ok _ => return [.header "Session-Key" t, .json 200 started.1]

def beginLogin (authn : WebAuthn Response) (body : Option String) : Replies := do
  match body with
  | none => return [.msg 400 "invalid request"]
  | some username =>
      match ← getOrCreateUser username with
      | .error err => return [creatingUserFailed err]
      | .ok user =>
          let challenge ← drawChallenge
          match authn.beginLogin user challenge with
          | .error text => return [.msg 400 text]
          | .ok started =>
              let t ← drawKey
              match ← saveSession username t started.2 with
              | .error _ => return [.json 500 (.obj [("msg", .obj [])])]
              | .ok _ => return [.header "Session-Key" t, .json 200 started.1]

/-- The persistent session that both ceremonies end with. -/
def startUserSession (settings : Settings) (user : PasskeyUser) (success : String) : Replies := do
  match ← drawSessionID with
  | none => return [.msg 500 "failed to create session"]
  | some sessionID =>
      match settings.sessionExpiry with
      | none => return [.msg 500 "failed to create session"]
      | some duration =>
          let current ← timeNow
          match ← authQuery (.createUserSession sessionID user.id (current + duration)) with
          | .error _ => return [.msg 500 "failed to create session"]
          | .ok _ =>
              let later ← timeNow
              return [.setCookie "lws_session" sessionID ((current + duration - later).tdiv second),
                .msg 200 success]

def finishRegistration (settings : Settings) (authn : WebAuthn Response) (t : String)
    (response : Response) : Replies := do
  match ← getSession t with
  | none => return [.msg 401 "invalid or expired session"]
  | some session =>
      match ← userOfSession session.userID with
      | .error err => return [creatingUserFailed err]
      | .ok user =>
          let current ← timeNow
          match authn.finishRegistration user session response current with
          | .error text => return [.msg 400 text]
          | .ok credential =>
              match ← authQuery (.createCredential (credentialRow user.id credential)) with
              | .error err =>
                  return [.json 500 (.obj [("msg", .dbError "error saving credential: " err)])]
              | .ok _ =>
                  let _ ← authQuery (.deleteSession t)
                  startUserSession settings user "Registration Success"

def finishLogin (settings : Settings) (authn : WebAuthn Response) (t : String)
    (response : Response) : Replies := do
  match ← getSession t with
  | none => return [.msg 401 "invalid or expired session"]
  | some session =>
      match ← userOfSession session.userID with
      | .error err => return [creatingUserFailed err]
      | .ok user =>
          let current ← timeNow
          match authn.finishLogin user session response current with
          | .error _ => return [.msg 401 "authentication failed"]
          | .ok credential =>
              match ← authQuery (.updateCredential (credentialRow user.id credential)) with
              | .error err =>
                  return [.json 500 (.obj [("msg", .dbError "error updating credential: " err)])]
              | .ok _ =>
                  let _ ← authQuery (.deleteSession t)
                  startUserSession settings user "Login Success"

def logout (cookies : Cookies) : Replies := do
  match cookies.session with
  | none => return [.setCookie "lws_session" "" (-1), .redirect "/"]
  | some sessionID =>
      let _ ← authQuery (.deleteUserSession sessionID)
      return [.setCookie "lws_session" "" (-1), .redirect "/"]

end Passkeys

end Portal

end Litefunctions
