import Litefunctions.InterleavedPrograms
import Litefunctions.PortalPasskeys

/-!
# Challenges that are used once

A request that finishes a ceremony reads the challenge session, verifies the
response, deletes the session and creates a user session, each with a
statement of its own.  A second request can read the session before it is
deleted, and a deletion that fails is only logged.  Where every deletion
removes the session that it names, a session leads to one user session at most.
-/

namespace Litefunctions

namespace Portal

namespace Passkeys

open Program Event PortalCall

variable {Response : Type}

/-- A request that finishes a registration or a login, with its `Session-Key`. -/
inductive FinishRequest (Response : Type) where
  | registration (key : String) (response : Response)
  | login (key : String) (response : Response)

namespace FinishRequest

def key : FinishRequest Response → String
  | registration key _ | login key _ => key

def handle (settings : Settings) (authn : WebAuthn Response) : FinishRequest Response → Replies
  | registration key response => finishRegistration settings authn key response
  | login key response => finishLogin settings authn key response

end FinishRequest

/-- The requests that are served at the same time, by their numbers. -/
abbrev Finishing : Type := Processes Nat PortalCall PortalCall.Response (List Reply) World

abbrev PortalEvent : Type := Event Nat PortalCall PortalCall.Response World

abbrev PortalHistory : Type := List (Answered PortalCall PortalCall.Response)

/-- Every call is answered; any statement may fail, with or without effect. -/
def step (call : PortalCall) (circumstance : Circumstance) (world : World) :
    Option (call.Response × World) :=
  some (call.execute circumstance world)

def start (settings : Settings) (authn : WebAuthn Response)
    (requests : Nat → FinishRequest Response) (world : World) : Finishing where
  shared := world
  program index := (requests index).handle settings authn

/-- The stored challenge session of this key. -/
def challenge? (db : Database) (key : String) : Option WebauthnSession :=
  db.webauthnSessions.find? (·.sessionID = key)

/-- The event created a user session. -/
def Created (event : PortalEvent) : Prop :=
  event.before.db.userSessions.rows.length < event.after.db.userSessions.rows.length

/-- No two user sessions were created by requests with one key. -/
def SingleUse (requests : Nat → FinishRequest Response) (events : List PortalEvent) : Prop :=
  ∀ early first between second late, events = early ++ first :: (between ++ second :: late) →
    Created first → Created second → (requests first.pid).key ≠ (requests second.pid).key

/-- The challenge session that a call is to delete. -/
def deletedKey? : PortalCall → Option String
  | .query (.auth (.deleteSession key)) => some key
  | _ => none

/-- A deletion finds the challenge session that it names, and removes it. -/
def Removes (event : PortalEvent) : Prop :=
  ∀ key ∈ deletedKey? event.request,
    (challenge? event.before.db key).isSome ∧ challenge? event.after.db key = none

instance (event : PortalEvent) : Decidable (Created event) :=
  inferInstanceAs (Decidable (_ < _))

instance (event : PortalEvent) : Decidable (Removes event) :=
  inferInstanceAs (Decidable (∀ key ∈ deletedKey? event.request, _))

/-! ### The calls of a request -/

/-- Calls that read, change users or credentials, or touch no table. -/
def Quiet : PortalCall → Prop
  | .query (.auth (.createUser _ _ _)) => True
  | .query (.auth (.getUserByName _)) => True
  | .query (.auth (.getCredentialsForUser _)) => True
  | .query (.auth (.createCredential _)) => True
  | .query (.auth (.updateCredential _)) => True
  | .query (.auth (.getSession _)) => True
  | .drawSessionID => True
  | .now => True
  | _ => False

/-- No user session was to be created yet. -/
def NoneCreated (history : PortalHistory) : Prop :=
  ∀ answered ∈ history, ∀ sessionID userID expiresAt,
    answered.1 ≠ .query (.auth (.createUserSession sessionID userID expiresAt))

/-- The challenge session of this key was to be deleted. -/
def Deleted (key : String) (history : PortalHistory) : Prop :=
  ∃ response, ⟨.query (.auth (.deleteSession key)), response⟩ ∈ history

/-- The calls of a request with this key, given what was answered to it. -/
def FinishCall (key : String) (history : PortalHistory) : PortalCall → Prop
  | .query (.auth (.deleteSession deleted)) => deleted = key
  | .query (.auth (.createUserSession _ _ _)) =>
      Deleted key history ∧ NoneCreated history
  | other => Quiet other

theorem Quiet.finishCall {call : PortalCall} (quiet : Quiet call) (key : String)
    (history : PortalHistory) : FinishCall key history call := by
  unfold FinishCall
  split
  · exact quiet.elim
  · exact quiet.elim
  · exact quiet

theorem NoneCreated.snoc {history : PortalHistory} (noneCreated : NoneCreated history)
    (call : PortalCall) (quiet : Quiet call) (response : call.Response) :
    NoneCreated (history ++ [⟨call, response⟩]) := by
  intro answered member sessionID userID expiresAt
  rcases List.mem_append.mp member with old | new
  · exact noneCreated answered old sessionID userID expiresAt
  · rw [List.mem_singleton.mp new]
    rintro rfl
    exact quiet.elim

theorem along_of_quiet {Result : Type} {key : String} {history : PortalHistory}
    {program : PortalProgram Result} (makes : program.Makes Quiet)
    (noneCreated : NoneCreated history) :
    program.Along (FinishCall key) (fun after _ => NoneCreated after) history := by
  induction program generalizing history with
  | done result => exact noneCreated
  | call request next ih =>
      exact ⟨makes.1.finishCall key history, fun response =>
        ih response (makes.2 response) (noneCreated.snoc request makes.1 response)⟩

theorem getSession_quiet (token : String) : (getSession token).Makes Quiet := by
  apply And.intro trivial
  intro found
  cases found <;> trivial

theorem getUser_quiet (userName : String) : (getUser userName).Makes Quiet := by
  apply And.intro trivial
  intro found
  cases found with
  | error err => trivial
  | ok u =>
      apply And.intro trivial
      intro listed
      cases listed <;> trivial

theorem userOfSession_quiet (id : Bytes) : (userOfSession id).Makes Quiet := by
  unfold userOfSession
  cases textOf id with
  | none => trivial
  | some userName =>
      apply (getUser_quiet userName).bind
      intro found
      cases found with
      | ok existingUser => trivial
      | error err =>
          apply And.intro trivial
          intro created
          cases created <;> trivial

theorem Deleted.append {key : String} {history : PortalHistory} (deleted : Deleted key history)
    (late : PortalHistory) : Deleted key (history ++ late) := by
  obtain ⟨response, member⟩ := deleted
  exact ⟨response, List.mem_append_left _ member⟩

theorem startUserSession_along (settings : Settings) (user : PasskeyUser) (success : String)
    {key : String} {history : PortalHistory} (deleted : Deleted key history)
    (noneCreated : NoneCreated history) :
    (startUserSession settings user success).Along (FinishCall key) (fun _ _ => True) history := by
  apply And.intro trivial
  intro drawn
  have noneYet := noneCreated.snoc .drawSessionID trivial drawn
  cases drawn with
  | none => trivial
  | some sessionID =>
      dsimp only
      cases settings.sessionExpiry with
      | none => trivial
      | some duration =>
          apply And.intro trivial
          intro current
          refine ⟨⟨(deleted.append _).append _, noneYet.snoc .now trivial current⟩,
            fun created => ?_⟩
          cases created with
          | error err => trivial
          | ok _ => exact ⟨trivial, fun _ => trivial⟩

theorem noneCreated_nil : NoneCreated [] :=
  nofun

/-- How both ceremonies end when the credential has been written. -/
theorem afterCredential_along (settings : Settings) (user : PasskeyUser) (success key : String)
    {history : PortalHistory} (noneCreated : NoneCreated history) :
    (authQuery (.deleteSession key) >>= fun _ => startUserSession settings user success).Along
      (FinishCall key) (fun _ _ => True) history := by
  apply And.intro rfl
  intro deleted
  apply startUserSession_along settings user success ⟨deleted, by simp⟩
  intro answered member sessionID userID expiresAt
  rcases List.mem_append.mp member with old | new
  · exact noneCreated answered old sessionID userID expiresAt
  · rw [List.mem_singleton.mp new]
    simp

theorem finishLogin_along (settings : Settings) (authn : WebAuthn Response) (key : String)
    (response : Response) :
    (finishLogin settings authn key response).Along (FinishCall key) (fun _ _ => True) [] := by
  refine along_bind.mpr ((along_of_quiet (getSession_quiet key) noneCreated_nil).imp
    (fun _ _ => id) fun history found noneCreated => ?_)
  cases found with
  | none => trivial
  | some session =>
      refine along_bind.mpr ((along_of_quiet (userOfSession_quiet session.userID) noneCreated).imp
        (fun _ _ => id) fun history resolved noneCreated => ?_)
      cases resolved with
      | error err => trivial
      | ok user =>
          apply And.intro trivial
          intro current
          have noneYet := noneCreated.snoc .now trivial current
          dsimp only [Program.bind]
          split
          · trivial
          · next credential _ =>
              apply And.intro trivial
              intro written
              cases written with
              | error err => trivial
              | ok _ =>
                  exact afterCredential_along _ _ _ _
                    (noneYet.snoc (.query (.auth (.updateCredential _))) trivial _)

theorem finishRegistration_along (settings : Settings) (authn : WebAuthn Response) (key : String)
    (response : Response) :
    (finishRegistration settings authn key response).Along (FinishCall key) (fun _ _ => True)
      [] := by
  refine along_bind.mpr ((along_of_quiet (getSession_quiet key) noneCreated_nil).imp
    (fun _ _ => id) fun history found noneCreated => ?_)
  cases found with
  | none => trivial
  | some session =>
      refine along_bind.mpr ((along_of_quiet (userOfSession_quiet session.userID) noneCreated).imp
        (fun _ _ => id) fun history resolved noneCreated => ?_)
      cases resolved with
      | error err => trivial
      | ok user =>
          apply And.intro trivial
          intro current
          have noneYet := noneCreated.snoc .now trivial current
          dsimp only [Program.bind]
          split
          · trivial
          · next credential _ =>
              apply And.intro trivial
              intro written
              cases written with
              | error err => trivial
              | ok _ =>
                  exact afterCredential_along _ _ _ _
                    (noneYet.snoc (.query (.auth (.createCredential _))) trivial _)

theorem handle_along (settings : Settings) (authn : WebAuthn Response)
    (request : FinishRequest Response) :
    (request.handle settings authn).Along (FinishCall request.key) (fun _ _ => True) [] := by
  cases request with
  | registration key response => exact finishRegistration_along settings authn key response
  | login key response => exact finishLogin_along settings authn key response

/-! ### What the calls do to the sessions -/

/-- The sessions of both kinds are the same. -/
def SameSessions (first second : Database) : Prop :=
  second.userSessions = first.userSessions ∧ second.webauthnSessions = first.webauthnSessions

theorem sameSessions_of_quiet {call : PortalCall} (quiet : Quiet call) (circumstance : Circumstance)
    (world : World) : SameSessions world.db (call.execute circumstance world).2.db := by
  cases call with
  | query statement =>
      cases statement with
      | auth statement =>
          have executed : ∀ moment, SameSessions world.db (statement.execute moment world.db).2 := by
            intro moment
            cases statement with
            | createUser id name displayName =>
                simp only [AuthQuery.execute]
                split
                · exact ⟨rfl, rfl⟩
                · split <;> exact ⟨rfl, rfl⟩
            | createCredential credential =>
                simp only [AuthQuery.execute]
                split
                · exact ⟨rfl, rfl⟩
                · split <;> exact ⟨rfl, rfl⟩
            | updateCredential credential =>
                simp only [AuthQuery.execute]
                split <;> exact ⟨rfl, rfl⟩
            | getUserByName name => exact ⟨rfl, rfl⟩
            | getCredentialsForUser userID => exact ⟨rfl, rfl⟩
            | getSession sessionID => exact ⟨rfl, rfl⟩
            | _ => exact quiet.elim
          simp only [execute, Query.execute]
          cases circumstance.fault with
          | none => exact executed _
          | lost => exact executed _
          | refused => exact ⟨rfl, rfl⟩
      | _ => exact quiet.elim
  | drawSessionID => exact ⟨rfl, rfl⟩
  | now => exact ⟨rfl, rfl⟩
  | _ => exact quiet.elim

theorem FinishCall.cases {key : String} {history : PortalHistory} {call : PortalCall}
    (finishCall : FinishCall key history call) :
    call = .query (.auth (.deleteSession key)) ∨
      (∃ sessionID userID expiresAt,
        call = .query (.auth (.createUserSession sessionID userID expiresAt)) ∧
          Deleted key history ∧ NoneCreated history) ∨
      Quiet call := by
  unfold FinishCall at finishCall
  split at finishCall
  · exact .inl (by rw [finishCall])
  · exact .inr (.inl ⟨_, _, _, rfl, finishCall⟩)
  · exact .inr (.inr finishCall)

/-- A challenge session that is gone stays away. -/
theorem challenge?_execute {key : String} {history : PortalHistory} {call : PortalCall}
    (finishCall : FinishCall key history call) (circumstance : Circumstance) (world : World)
    {other : String} (gone : challenge? world.db other = none) :
    challenge? (call.execute circumstance world).2.db other = none := by
  rcases finishCall.cases with rfl | ⟨sessionID, userID, expiresAt, rfl, -⟩ | quiet
  · have removed : (world.db.webauthnSessions.remove (·.sessionID = key)).find?
        (·.sessionID = other) = none := by
      rw [Table.find?, List.find?_eq_none]
      intro row member
      exact List.find?_eq_none.mp gone row (Table.mem_remove.mp member).1
    simp only [execute, Query.execute, AuthQuery.execute]
    cases circumstance.fault with
    | none => exact removed
    | lost => exact removed
    | refused => exact gone
  · have same : ∀ moment, challenge? ((AuthQuery.createUserSession sessionID userID expiresAt).execute
        moment world.db).2 other = none := by
      intro moment
      simp only [AuthQuery.execute]
      split
      · exact gone
      · split <;> exact gone
    simp only [execute, Query.execute]
    cases circumstance.fault with
    | none => exact same _
    | lost => exact same _
    | refused => exact gone
  · rw [challenge?, (sameSessions_of_quiet quiet circumstance world).2]
    exact gone

/-- Only the creation of a user session adds one. -/
theorem userSessions_execute {key : String} {history : PortalHistory} {call : PortalCall}
    (finishCall : FinishCall key history call) (circumstance : Circumstance) (world : World)
    (others : ∀ sessionID userID expiresAt,
      call ≠ .query (.auth (.createUserSession sessionID userID expiresAt))) :
    (call.execute circumstance world).2.db.userSessions = world.db.userSessions := by
  rcases finishCall.cases with rfl | ⟨sessionID, userID, expiresAt, rfl, -⟩ | quiet
  · simp only [execute, Query.execute, AuthQuery.execute]
    cases circumstance.fault <;> rfl
  · exact absurd rfl (others _ _ _)
  · exact (sameSessions_of_quiet quiet circumstance world).1

/-! ### Runs -/

section Runs

variable {settings : Settings} {authn : WebAuthn Response} {requests : Nat → FinishRequest Response}
variable {world : World} {events early late : List PortalEvent} {event : PortalEvent}
variable {last : Finishing}

theorem finishCall_of_ran
    (ran : Processes.Ran step (start settings authn requests world) (early ++ event :: late) last) :
    FinishCall (requests event.pid).key (own event.pid early) event.request :=
  ran.assertion (handle_along settings authn (requests event.pid))

/-- Two deletions of one challenge session cannot both remove it. -/
theorem not_removes_twice {first second : PortalEvent} {between : List PortalEvent} {key : String}
    (ran : Processes.Ran step (start settings authn requests world)
      (early ++ first :: (between ++ second :: late)) last)
    (deletes : first.request = .query (.auth (.deleteSession key)))
    (deletesAgain : second.request = .query (.auth (.deleteSession key)))
    (removes : Removes first) : ¬ Removes second := by
  intro removesAgain
  have linked : Linked first.after (between ++ second :: late) :=
    (linked_append.mp ran.linked).2.2
  have gone : challenge? second.before.db key = none := by
    refine linked.run_induction_before
      (motive := fun _ world => challenge? world.db key = none) rfl (removes key (deletes ▸ rfl)).2 ?_
    intro start middle rest split gone
    have splitRun : early ++ first :: (between ++ second :: late) =
        (early ++ first :: start) ++ middle :: (rest ++ second :: late) := by
      simp [split]
    rw [splitRun] at ran
    obtain ⟨circumstance, executed⟩ := ran.executed (show middle ∈ _ by simp)
    have stillGone := challenge?_execute (finishCall_of_ran ran) circumstance middle.before gone
    rwa [Option.some.inj executed] at stillGone
  have found := (removesAgain key (deletesAgain ▸ rfl)).1
  rw [gone] at found
  cases found

/-- A created user session was preceded by the deletion of the challenge. -/
theorem deleted_of_created
    (ran : Processes.Ran step (start settings authn requests world) (early ++ event :: late) last)
    (created : Created event) :
    (∃ sessionID userID expiresAt,
      event.request = .query (.auth (.createUserSession sessionID userID expiresAt))) ∧
      Deleted (requests event.pid).key (own event.pid early) ∧
      NoneCreated (own event.pid early) := by
  have finishCall := finishCall_of_ran ran
  by_cases creates : ∃ sessionID userID expiresAt,
      event.request = .query (.auth (.createUserSession sessionID userID expiresAt))
  · obtain ⟨sessionID, userID, expiresAt, requestEq⟩ := creates
    rw [requestEq] at finishCall
    exact ⟨⟨sessionID, userID, expiresAt, requestEq⟩, finishCall⟩
  · obtain ⟨circumstance, executed⟩ := ran.executed (show event ∈ _ by simp)
    have same := userSessions_execute finishCall circumstance event.before
      fun sessionID userID expiresAt requestEq => creates ⟨sessionID, userID, expiresAt, requestEq⟩
    rw [Option.some.inj executed] at same
    have longer : event.before.db.userSessions.rows.length <
        event.after.db.userSessions.rows.length := created
    rw [same] at longer
    exact absurd longer (Nat.lt_irrefl _)

/-- Where every deletion removes the challenge session that it names, each
challenge session leads to one user session at most. -/
theorem singleUse_of_removes
    (ran : Processes.Ran step (start settings authn requests world) events last)
    (removes : ∀ event ∈ events, Removes event) : SingleUse requests events := by
  rintro early first between second late rfl created createdAgain sameKey
  have split : early ++ first :: (between ++ second :: late) =
      (early ++ first :: between) ++ second :: late := by simp
  obtain ⟨⟨sessionID, userID, expiresAt, creates⟩, deleted, -⟩ := deleted_of_created ran created
  have ranSecond := ran
  rw [split] at ranSecond
  obtain ⟨-, deletedAgain, noneCreated⟩ := deleted_of_created ranSecond createdAgain
  by_cases samePid : first.pid = second.pid
  · refine noneCreated first.answered ?_ sessionID userID expiresAt creates
    exact mem_own.mpr ⟨first, by simp, samePid, rfl⟩
  · obtain ⟨response, isOwn⟩ := deleted
    obtain ⟨otherResponse, isOtherOwn⟩ := deletedAgain
    obtain ⟨deleting, member, pidEq, answeredEq⟩ := mem_own.mp isOwn
    obtain ⟨other, otherMember, otherPidEq, otherAnsweredEq⟩ := mem_own.mp isOtherOwn
    have deletes : deleting.request = .query (.auth (.deleteSession (requests first.pid).key)) :=
      congrArg Sigma.fst answeredEq
    have otherDeletes : other.request =
        .query (.auth (.deleteSession (requests first.pid).key)) := by
      rw [sameKey]
      exact congrArg Sigma.fst otherAnsweredEq
    have different : deleting.pid ≠ other.pid := by
      rw [pidEq, otherPidEq]
      exact samePid
    have inRun : ∀ event ∈ early ++ first :: between,
        Removes event := fun event isEarlier =>
          removes event (split ▸ List.mem_append_left _ isEarlier)
    rcases ordered_of_mem (List.mem_append_left _ member) otherMember different with
      ⟨start, middle, rest, order⟩ | ⟨start, middle, rest, order⟩
    · rw [order, List.append_assoc, List.cons_append, List.append_assoc, List.cons_append]
        at ranSecond
      exact not_removes_twice ranSecond deletes otherDeletes (inRun deleting (by simp [order]))
        (inRun other (by simp [order]))
    · rw [order, List.append_assoc, List.cons_append, List.append_assoc, List.cons_append]
        at ranSecond
      exact not_removes_twice ranSecond otherDeletes deletes (inRun other (by simp [order]))
        (inRun deleting (by simp [order]))

end Runs

/-! ### An assertion that is sent twice -/

def aliceSettings : Settings where
  fqdn := "lite.example"
  vcsToken := "token"
  ingestorUrl := "https://lite.example"
  sessionExpiry := some (24 * 3600 * second)
  toLower := Char.toLower

def aliceCredential : WebCredential :=
  ⟨[7], [8], "none", ["internal"], 0, 1⟩

/-- A library that accepts the answer to a challenge of the user. -/
def challengeAuthn : WebAuthn Bytes where
  beginRegistration user challenge :=
    .ok (.obj [], ⟨challenge, "lite.example", user.id, [], none, "[]", "{}", "", ""⟩)
  finishRegistration user session response _ :=
    if user.id = session.userID ∧ response = session.challenge then .ok aliceCredential
    else .error "Error validating challenge"
  beginLogin user challenge :=
    .ok (.obj [], ⟨challenge, "lite.example", user.id, [], none, "[]", "{}", "", ""⟩)
  finishLogin user session response _ :=
    if user.id = session.userID ∧ response = session.challenge ∧ aliceCredential ∈ user.creds then
      .ok aliceCredential
    else .error "Error validating challenge"

/-- The user `a` has a credential and has begun a login. -/
def loginWorld : World where
  db :=
    { Database.empty with
      users := .single ⟨[97], "a", "a"⟩
      credentials := .single (credentialRow [97] aliceCredential)
      webauthnSessions :=
        .single ⟨"key", "a", [1, 2], [97], [], none, none, "[]", "{}", none, none⟩ }
  saved := none
  cluster := ⟨.empty, .empty, .empty, 0⟩
  clock := 0

/-- Some steps of a request, which draws the session id `sessionID`. -/
def finishSteps (index count : Nat) (sessionID : String) : List (Nat × Circumstance) :=
  List.replicate count (index, { text := sessionID })

/-- Both requests read the challenge session before one of them deletes it. -/
def sentTwice : List PortalEvent :=
  ((start aliceSettings challengeAuthn (fun _ => .login "key" [1, 2]) loginWorld).run step
    (finishSteps 0 5 "first" ++ finishSteps 1 10 "second" ++ finishSteps 0 5 "first")).1

/-- Single use, for two places of a run. -/
theorem SingleUse.ne_key {requests : Nat → FinishRequest Response} {events : List PortalEvent}
    (singleUse : SingleUse requests events) {index other : Nat} (order : index < other)
    (bound : other < events.length) (created : Created events[index])
    (createdAgain : Created events[other]) :
    (requests events[index].pid).key ≠ (requests events[other].pid).key := by
  refine singleUse (events.take index) _ ((events.drop (index + 1)).take (other - (index + 1))) _
    (events.drop (other + 1)) ?_ created createdAgain
  have rest : (events.drop (index + 1)).drop (other - (index + 1)) =
      events[other] :: events.drop (other + 1) := by
    rw [List.drop_drop, Nat.add_sub_cancel' order, List.drop_eq_getElem_cons bound]
  rw [← rest, List.take_append_drop, List.getElem_cons_drop, List.take_append_drop]

@[simp]
theorem length_sentTwice : sentTwice.length = 20 := by
  decide +kernel

theorem sentTwice_not_singleUse :
    ¬ ∀ (settings : Settings) (authn : WebAuthn Bytes) (requests : Nat → FinishRequest Bytes)
        (world : World) (events : List PortalEvent) (last : Finishing),
      Processes.Ran step (start settings authn requests world) events last →
        SingleUse requests events := by
  intro singleUse
  have single : SingleUse (fun _ => .login "key" [1, 2]) sentTwice :=
    singleUse _ _ _ _ _ _ (Processes.ran_run _ _)
  have different := @SingleUse.ne_key _ _ _ single 13 18 (by decide) (by simp)
    (by decide +kernel) (by decide +kernel)
  exact different rfl

/-- The second request comes when the first one has deleted the challenge. -/
def sentInOrder : List PortalEvent :=
  ((start aliceSettings challengeAuthn (fun _ => .login "key" [1, 2]) loginWorld).run step
    (finishSteps 0 10 "first" ++ finishSteps 1 1 "second")).1

theorem sentInOrder_singleUse :
    @SingleUse Bytes (fun _ => .login "key" [1, 2]) sentInOrder ∧
      (sentInOrder.filter (Created ·)).length = 1 :=
  ⟨singleUse_of_removes (Processes.ran_run _ _) (by decide +kernel), by decide +kernel⟩

end Passkeys

end Portal

end Litefunctions
