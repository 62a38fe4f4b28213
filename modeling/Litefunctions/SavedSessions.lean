import Litefunctions.PortalPasskeys

/-!
# Challenge sessions in the store

`SaveSession` writes the session data of a ceremony into a row and `GetSession`
reads them back.  Three columns are written as texts that are not marked as
valid, so they are null, and the empty text is read back.
-/

namespace Litefunctions

namespace Portal

open Program

namespace Passkeys

/-- The values of a JSON column: what is written for them and what is read back. -/
structure JsonColumn (Value : Type) where
  marshal : Value → String
  unmarshal : String → Value
  lossless : ∀ value, unmarshal (marshal value) = value

/-- `webauthn.SessionData` with its parameters and extensions as values. -/
structure CeremonyData (CredParams Extensions : Type) where
  challenge : Bytes
  relyingPartyID : String
  userID : Bytes
  allowedCredentialIDs : List Bytes
  expires : Option Int
  credParams : CredParams
  extensions : Extensions
  userVerification : String
  mediation : String

namespace CeremonyData

variable {CredParams Extensions : Type}

/-- The data as `SaveSession` marshals them. -/
def marshalled (params : JsonColumn CredParams) (exts : JsonColumn Extensions)
    (d : CeremonyData CredParams Extensions) : SessionData where
  challenge := d.challenge
  relyingPartyID := d.relyingPartyID
  userID := d.userID
  allowedCredentialIDs := d.allowedCredentialIDs
  expires := d.expires
  credParams := params.marshal d.credParams
  extensions := exts.marshal d.extensions
  userVerification := d.userVerification
  mediation := d.mediation

/-- The data as `GetSession` unmarshals them. -/
def unmarshalled (params : JsonColumn CredParams) (exts : JsonColumn Extensions)
    (data : SessionData) : CeremonyData CredParams Extensions where
  challenge := data.challenge
  relyingPartyID := data.relyingPartyID
  userID := data.userID
  allowedCredentialIDs := data.allowedCredentialIDs
  expires := data.expires
  credParams := params.unmarshal data.credParams
  extensions := exts.unmarshal data.extensions
  userVerification := data.userVerification
  mediation := data.mediation

/-- The data are the same in every column that both calls know. -/
def SameColumns (first second : CeremonyData CredParams Extensions) : Prop :=
  first.challenge = second.challenge ∧ first.relyingPartyID = second.relyingPartyID ∧
    first.userID = second.userID ∧ first.allowedCredentialIDs = second.allowedCredentialIDs ∧
    first.credParams = second.credParams ∧ first.extensions = second.extensions ∧
    first.userVerification = second.userVerification ∧ first.mediation = second.mediation

/-- `GetSession(token)` right after `SaveSession(username, token, d)`. -/
def saveAndGet (params : JsonColumn CredParams) (exts : JsonColumn Extensions)
    (username token : String) (d : CeremonyData CredParams Extensions) :
    PortalProgram (Option (CeremonyData CredParams Extensions)) := do
  let _ ← saveSession username token (d.marshalled params exts)
  return (← getSession token).map (unmarshalled params exts)

/-- The data without the texts that are not marked as valid. -/
def withoutTexts (d : CeremonyData CredParams Extensions) : CeremonyData CredParams Extensions :=
  { d with relyingPartyID := "", userVerification := "", mediation := "" }

theorem withoutTexts_sameColumns_iff {d : CeremonyData CredParams Extensions} :
    d.withoutTexts.SameColumns d ↔
      d.relyingPartyID = "" ∧ d.userVerification = "" ∧ d.mediation = "" := by
  constructor
  · rintro ⟨-, sameParty, -, -, -, -, sameVerification, sameMediation⟩
    exact ⟨sameParty.symm, sameVerification.symm, sameMediation.symm⟩
  · rintro ⟨noParty, noVerification, noMediation⟩
    exact ⟨rfl, noParty.symm, rfl, rfl, rfl, rfl, noVerification.symm, noMediation.symm⟩

/-- What is read back of a session that was just saved. -/
theorem saveAndGet_result {circumstances : Nat → PortalCall.Circumstance}
    (undisturbed : ∀ index, (circumstances index).fault = .none)
    (params : JsonColumn CredParams) (exts : JsonColumn Extensions) (username token : String)
    (d : CeremonyData CredParams Extensions) (world : World) :
    ((d.saveAndGet params exts username token).runAlone PortalCall.execute circumstances world).1 =
      some d.withoutTexts := by
  let row : WebauthnSession :=
    { sessionID := token
      userName := username
      challenge := d.challenge
      userID := d.userID
      allowedCredentials := d.allowedCredentialIDs
      expiresAt := d.expires
      rpID := none
      credParams := params.marshal d.credParams
      extensions := exts.marshal d.extensions
      userVerification := none
      mediation := none }
  have covers : ∀ other : WebauthnSession, decide (other.sessionID = token) = false →
      other.conflicts row = false := fun other differs => differs
  obtain ⟨sessions, inserted, found⟩ :=
    world.db.webauthnSessions.exists_replace (decide_eq_true (p := row.sessionID = token) rfl) covers
  simp [saveAndGet, saveSession, getSession, marshalled, runAlone, PortalCall.execute, undisturbed,
    Query.execute, AuthQuery.execute, inserted, found, row, oneRow]
  simp [sessionData, unmarshalled, withoutTexts, params.lossless, exts.lossless]

/-- The store returns what it was given exactly where the texts that it drops
are empty. -/
theorem saveAndGet_restores_iff {circumstances : Nat → PortalCall.Circumstance}
    (undisturbed : ∀ index, (circumstances index).fault = .none)
    (params : JsonColumn CredParams) (exts : JsonColumn Extensions) (username token : String)
    (d : CeremonyData CredParams Extensions) (world : World) :
    (∃ restored, ((d.saveAndGet params exts username token).runAlone PortalCall.execute
          circumstances world).1 = some restored ∧ restored.SameColumns d) ↔
      d.relyingPartyID = "" ∧ d.userVerification = "" ∧ d.mediation = "" := by
  rw [saveAndGet_result undisturbed params exts username token d world,
    ← withoutTexts_sameColumns_iff]
  simp

end CeremonyData

/-- A field that is always nil. -/
def nilColumn : JsonColumn Unit where
  marshal _ := "null"
  unmarshal _ := ()
  lossless _ := rfl

/-- The data of a login for a relying party. -/
def loginData (relyingPartyID userVerification : String) : CeremonyData Unit Unit where
  challenge := [1, 2, 3]
  relyingPartyID := relyingPartyID
  userID := [97]
  allowedCredentialIDs := [[7]]
  expires := none
  credParams := ()
  extensions := ()
  userVerification := userVerification
  mediation := ""

def emptyWorld : World where
  db := .empty
  saved := none
  cluster := ⟨.empty, .empty, .empty, 0⟩
  clock := 0

theorem saveAndGet_restores_plain :
    (∃ restored, (((loginData "" "").saveAndGet nilColumn nilColumn "a" "t").runAlone
          PortalCall.execute (fun _ => {}) emptyWorld).1 = some restored ∧
        restored.SameColumns (loginData "" "")) ↔
      (loginData "" "").relyingPartyID = "" ∧ (loginData "" "").userVerification = "" ∧
        (loginData "" "").mediation = "" :=
  CeremonyData.saveAndGet_restores_iff (fun _ => rfl) nilColumn nilColumn "a" "t" (loginData "" "")
    emptyWorld

theorem saveAndGet_localhost :
    ¬ ∃ restored, (((loginData "localhost" "required").saveAndGet nilColumn nilColumn "a" "t").runAlone
          PortalCall.execute (fun _ => {}) emptyWorld).1 = some restored ∧
        restored.SameColumns (loginData "localhost" "required") := by
  have calm : ∀ index : Nat, ((fun _ => {} : Nat → PortalCall.Circumstance) index).fault = .none :=
    fun _ => rfl
  rw [CeremonyData.saveAndGet_result calm]
  rintro ⟨restored, isRestored, -, sameParty, -⟩
  rw [← Option.some.inj isRestored] at sameParty
  exact absurd sameParty (by decide +kernel)

end Passkeys

end Portal

end Litefunctions
