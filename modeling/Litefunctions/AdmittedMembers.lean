import Litefunctions.InterleavedRows
import Litefunctions.ProjectRoles

/-!
# How members come into projects

Who is a member of a project has created it or has taken up an invite that
another user issued as an owner of the project, whatever else the system does in
between and whatever fails.  Handlers remember who they serve: the evidence for
a member is in earlier events of the same process, and the one for an invite in
events of the process that stored it.
-/

namespace Litefunctions

open Portal Program

variable {Pid : Type} {first : System Pid} {early later : List (SystemEvent Pid)}

/-! ### Evidence -/

/-- The process has found a valid session of the user. -/
def SignedIn (early : List (SystemEvent Pid)) (pid : Pid) (userID : Bytes) : Prop :=
  ∃ event ∈ early, event.pid = pid ∧ ∃ row ∈ event.before.db.userSessions.rows,
    row.userID = userID ∧ event.after.clock < row.expiresAt

/-- How an invite to the project came about. -/
inductive Issued (first : System Pid) (early : List (SystemEvent Pid)) (projectID : Uuid)
    (createdBy : Bytes) : Prop
  | initially {invite : ProjectInvite} (stored : invite ∈ first.db.invites.rows)
      (isProject : invite.projectID = projectID) (isCreator : invite.createdBy = createdBy)
  | byOwner {check : SystemEvent Pid} (isEvent : check ∈ early)
      (signedIn : SignedIn early check.pid createdBy)
      (isOwner : check.before.db.role? createdBy projectID = some .owner)

/-- How the user became a member of the project. -/
inductive Admitted (first : System Pid) (early : List (SystemEvent Pid)) (userID : Bytes)
    (projectID : Uuid) : Prop
  | initially (isMember : first.db.IsMember userID projectID)
  | creator {creation : SystemEvent Pid} {project : Project} (isEvent : creation ∈ early)
      (signedIn : SignedIn early creation.pid userID)
      (isNew : project ∉ creation.before.db.projects.rows)
      (stored : project ∈ creation.after.db.projects.rows) (isProject : project.id = projectID)
      (isCreator : project.createdBy = userID)
  | invited {use : SystemEvent Pid} {invite : ProjectInvite} (isEvent : use ∈ early)
      (signedIn : SignedIn early use.pid userID) (stored : invite ∈ use.before.db.invites.rows)
      (isProject : invite.projectID = projectID) (unused : invite.usedAt = none)
      (unexpired : use.after.clock < invite.expiresAt) (isOther : invite.createdBy ≠ userID)
      (issued : Issued first early projectID invite.createdBy)

/-- All members and invites of the database have come about so. -/
structure Explained (first : System Pid) (early : List (SystemEvent Pid)) (db : Database) : Prop where
  members : ∀ row ∈ db.access.rows, Admitted first early row.userID row.projectID
  invites : ∀ row ∈ db.invites.rows, Issued first early row.projectID row.createdBy

section Monotone

variable {pid : Pid} {userID : Bytes} {projectID : Uuid} {db : Database}

theorem SignedIn.mono (signedIn : SignedIn early pid userID) (grows : early ⊆ later) :
    SignedIn later pid userID := by
  obtain ⟨event, isEvent, session⟩ := signedIn
  exact ⟨event, grows isEvent, session⟩

theorem Issued.mono (issued : Issued first early projectID userID) (grows : early ⊆ later) :
    Issued first later projectID userID := by
  cases issued with
  | initially stored isProject isCreator => exact .initially stored isProject isCreator
  | byOwner isEvent signedIn isOwner =>
      exact .byOwner (grows isEvent) (signedIn.mono grows) isOwner

theorem Admitted.mono (admitted : Admitted first early userID projectID) (grows : early ⊆ later) :
    Admitted first later userID projectID := by
  cases admitted with
  | initially isMember => exact .initially isMember
  | creator isEvent signedIn isNew stored isProject isCreator =>
      exact .creator (grows isEvent) (signedIn.mono grows) isNew stored isProject isCreator
  | invited isEvent signedIn stored isProject unused unexpired isOther issued =>
      exact .invited (grows isEvent) (signedIn.mono grows) stored isProject unused unexpired isOther
        (issued.mono grows)

theorem Explained.mono (explained : Explained first early db) (grows : early ⊆ later) :
    Explained first later db where
  members row member := (explained.members row member).mono grows
  invites row member := (explained.invites row member).mono grows

theorem Explained.start : Explained first [] first.db where
  members row member := .initially ⟨row, member, rfl, rfl⟩
  invites _ member := .initially member rfl rfl

end Monotone

/-! ### What a statement adds -/

/-- A row that conflicts with itself is new when it is inserted. -/
theorem Table.notMem_of_insert {Row : Type} {conflicts : Row → Row → Bool}
    {table after : Table Row conflicts} {row : Row} (inserted : table.insert row = some after)
    (conflict : conflicts row row = true) : row ∉ table.rows := by
  intro isOld
  have refused := Table.insert_eq_none_iff.mpr ⟨row, isOld, conflict⟩
  rw [inserted] at refused
  cases refused

namespace Portal

section Statements

variable {db : Database}

theorem mem_insertAccess {row other : ProjectAccess}
    (member : other ∈ (AccessQuery.insertAccess row db).2.access.rows) :
    other ∈ db.access.rows ∨ other = row := by
  unfold AccessQuery.insertAccess at member
  split at member
  · exact .inl member
  · split at member
    · exact .inl member
    · next access inserted => exact (Table.mem_insert inserted).mp member

theorem isMember_of_mem_setRole {userID : Bytes} {projectID : Uuid} {role : Role} {row : ProjectAccess}
    (member : row ∈ (AccessQuery.setRole userID projectID role db).2.access.rows) :
    db.IsMember row.userID row.projectID := by
  unfold AccessQuery.setRole at member
  split at member
  · exact ⟨row, member, rfl, rfl⟩
  · next access modified =>
      rw [Table.rows_modify modified] at member
      obtain ⟨old, oldMember, rfl⟩ := List.mem_map.mp member
      refine ⟨old, oldMember, ?_⟩
      split <;> exact ⟨rfl, rfl⟩

/-- Only two statements make a user a member. -/
theorem Query.members_of_execute (statement : Query) (moment : Moment) {row : ProjectAccess}
    (member : row ∈ (statement.execute moment db).2.access.rows) :
    db.IsMember row.userID row.projectID ∨
      statement = .access (.addProjectOwner row.userID row.projectID) ∨
        statement = .access (.addViewerToProject row.userID row.projectID) := by
  by_cases quiet : statement.keepsRoles = true
  · rw [(Query.sameRoles statement quiet moment db).access] at member
    exact .inl ⟨row, member, rfl, rfl⟩
  · cases statement with
    | access query =>
        cases query with
        | addProjectOwner userID projectID =>
            simp only [Query.execute, AccessQuery.execute] at member
            split at member
            · rcases mem_insertAccess member with old | rfl
              · exact .inl ⟨row, old, rfl, rfl⟩
              · exact .inr (.inl rfl)
            · exact .inl (isMember_of_mem_setRole member)
        | addViewerToProject userID projectID =>
            simp only [Query.execute, AccessQuery.execute] at member
            split at member
            · rcases mem_insertAccess member with old | rfl
              · exact .inl ⟨row, old, rfl, rfl⟩
              · exact .inr (.inr rfl)
            · exact .inl ⟨row, member, rfl, rfl⟩
        | updateUserProjectRole userID projectID role =>
            simp only [Query.execute, AccessQuery.execute] at member
            repeat' split at member
            all_goals first
              | exact .inl ⟨row, member, rfl, rfl⟩
              | exact .inl (isMember_of_mem_setRole member)
        | revokeProjectAccess projectID userID =>
            cases userID with
            | none => exact .inl ⟨row, member, rfl, rfl⟩
            | some userID => exact .inl ⟨row, (Table.mem_remove.mp member).1, rfl, rfl⟩
        | _ => exact absurd rfl quiet
    | project query =>
        simp only [Query.execute, ProjectQuery.execute] at member
        cases query with
        | createProject name createdBy =>
            dsimp only at member
            repeat' split at member
            all_goals exact .inl ⟨row, member, rfl, rfl⟩
        | getProjectByID id => exact .inl ⟨row, member, rfl, rfl⟩
    | _ => exact absurd rfl quiet

theorem Query.invites_of_other (statement : Query) (other : ∀ query, statement ≠ .access query)
    (moment : Moment) (db : Database) : (statement.execute moment db).2.invites = db.invites := by
  cases statement with
  | access query => exact absurd rfl (other query)
  | project query =>
      cases query <;> simp only [Query.execute, ProjectQuery.execute]
      repeat' split
      all_goals rfl
  | function query =>
      cases query <;> simp only [Query.execute, FunctionQuery.execute, FunctionQuery.change] <;>
        repeat' split
      all_goals rfl
  | endpoint query =>
      cases query <;> simp only [Query.execute, EndpointQuery.execute] <;> repeat' split
      all_goals rfl
  | auth query =>
      cases query <;> simp only [Query.execute, AuthQuery.execute] <;> repeat' split
      all_goals rfl

/-- Only one statement adds an invite. -/
theorem Query.invites_of_execute (statement : Query) (moment : Moment) {row : ProjectInvite}
    (member : row ∈ (statement.execute moment db).2.invites.rows) :
    (∃ old ∈ db.invites.rows, old.projectID = row.projectID ∧ old.createdBy = row.createdBy) ∨
      ∃ inviteCode expiresAt, statement =
        .access (.createProjectInvite row.projectID inviteCode row.createdBy expiresAt) := by
  by_cases isAccess : ∃ query, statement = .access query
  · obtain ⟨query, rfl⟩ := isAccess
    cases query with
    | createProjectInvite projectID inviteCode createdBy expiresAt =>
        simp only [Query.execute, AccessQuery.execute] at member
        split at member
        · exact .inl ⟨row, member, rfl, rfl⟩
        · split at member
          · exact .inl ⟨row, member, rfl, rfl⟩
          · next invites inserted =>
              rcases (Table.mem_insert inserted).mp member with old | rfl
              · exact .inl ⟨row, old, rfl, rfl⟩
              · exact .inr ⟨inviteCode, expiresAt, rfl⟩
    | markInviteUsed id =>
        simp only [Query.execute, AccessQuery.execute] at member
        split at member
        · exact .inl ⟨row, member, rfl, rfl⟩
        · next invites modified =>
            rw [Table.rows_modify modified] at member
            obtain ⟨old, oldMember, rfl⟩ := List.mem_map.mp member
            refine .inl ⟨old, oldMember, ?_⟩
            split <;> exact ⟨rfl, rfl⟩
    | _ =>
        simp only [Query.execute, AccessQuery.execute, AccessQuery.insertAccess,
          AccessQuery.setRole] at member
        repeat' split at member
        all_goals exact .inl ⟨row, member, rfl, rfl⟩
  · have same := statement.invites_of_other (fun query isQuery => isAccess ⟨query, isQuery⟩) moment db
    exact .inl ⟨row, same ▸ member, rfl, rfl⟩

end Statements

end Portal

/-! ### What a request was told -/

section Told

variable [DecidableEq Pid] {Response : Type} {settings : Portal.Settings}
variable {authn : Passkeys.WebAuthn Response} {tasks : Pid → SystemTask Response}
variable {middle : Processes Pid (SystemCall Pid) SystemCall.Response SystemOutcome (System Pid)}
variable {pid : Pid} {part : PortalHistory} {userID : Bytes} {projectID : Uuid}

theorem SystemRuns.signedIn_of_tells (ran : SystemRuns settings authn first tasks early middle)
    (embeds : EmbedsPortal pid part (Event.own pid early)) (tells : TellsUser part userID) :
    SignedIn early pid userID := by
  obtain ⟨sessionID, row, told, isUser⟩ := tells
  obtain ⟨event, isEvent, isOwn, fresh, executed⟩ := Processes.Ran.told ran embeds told
  obtain ⟨stored, isValid⟩ := Table.find?_some (oneRow_eq_ok (congrArg Prod.fst executed))
  exact ⟨event, isEvent, isOwn, row, stored, isUser, (of_decide_eq_true isValid).2⟩

theorem SystemRuns.issued_of_tells (ran : SystemRuns settings authn first tasks early middle)
    (embeds : EmbedsPortal pid part (Event.own pid early)) (user : TellsUser part userID)
    (owner : TellsOwner part userID projectID) : Issued first early projectID userID := by
  obtain ⟨event, isEvent, isOwn, fresh, executed⟩ := Processes.Ran.told ran embeds owner
  refine .byOwner isEvent (isOwn ▸ SystemRuns.signedIn_of_tells ran embeds user) ?_
  obtain ⟨role, isRole, isText⟩ :=
    Option.map_eq_some_iff.mp (oneRow_eq_ok (congrArg Prod.fst executed))
  cases role with
  | owner => exact isRole
  | manager | viewer => exact absurd isText (by simp [Role.text])

theorem SystemRuns.admitted_of_creation (ran : SystemRuns settings authn first tasks early middle)
    (embeds : EmbedsPortal pid part (Event.own pid early)) (user : TellsUser part userID)
    (creation : TellsCreation part userID projectID) : Admitted first early userID projectID := by
  obtain ⟨name, project, told, isProject⟩ := creation
  obtain ⟨event, isEvent, isOwn, fresh, executed⟩ := Processes.Ran.told ran embeds told
  have signedIn : SignedIn early event.pid userID :=
    isOwn ▸ SystemRuns.signedIn_of_tells ran embeds user
  simp only [Query.execute, ProjectQuery.execute] at executed
  split at executed
  · cases congrArg Prod.fst executed
  · split at executed
    · cases congrArg Prod.fst executed
    · next projects inserted =>
        obtain ⟨answer, isAfter⟩ := Prod.mk.inj executed
        obtain rfl := Except.ok.inj answer
        have isNew := Table.notMem_of_insert inserted (by simp [Project.conflicts])
        refine .creator isEvent signedIn isNew ?_ isProject rfl
        rw [← isAfter]
        exact (Table.mem_insert inserted).mpr (.inr rfl)

theorem SystemRuns.admitted_of_invite (ran : SystemRuns settings authn first tasks early middle)
    (embeds : EmbedsPortal pid part (Event.own pid early)) (user : TellsUser part userID)
    (explained : ∀ event ∈ early, Explained first early event.before.db)
    (told : TellsInvite part userID projectID) : Admitted first early userID projectID := by
  obtain ⟨code, invite, told, isProject, isOther⟩ := told
  obtain ⟨event, isEvent, isOwn, fresh, executed⟩ := Processes.Ran.told ran embeds told
  obtain ⟨stored, isValid⟩ := Table.find?_some (oneRow_eq_ok (congrArg Prod.fst executed))
  obtain ⟨-, unused, unexpired⟩ := of_decide_eq_true isValid
  have issued := (explained event isEvent).invites invite stored
  rw [isProject] at issued
  exact .invited isEvent (isOwn ▸ SystemRuns.signedIn_of_tells ran embeds user) stored isProject
    unused unexpired isOther issued

end Told

/-! ### Steps -/

/-- The current and the saved database are explained, and so are the earlier
ones. -/
structure ExplainedThroughout (first : System Pid) (early : List (SystemEvent Pid))
    (system : System Pid) : Prop where
  current : Explained first early system.db
  saved : ∀ db, system.world.saved = some db → Explained first early db
  befores : ∀ event ∈ early, Explained first early event.before.db

theorem ExplainedThroughout.start (closed : first.transaction = none) :
    ExplainedThroughout first [] first where
  current := .start
  saved db isSaved := by
    rw [System.saved_of_closed closed] at isSaved
    cases isSaved
  befores event member := absurd member List.not_mem_nil

/-- A step to an explained database. -/
theorem ExplainedThroughout.snoc {event : SystemEvent Pid}
    (explained : ExplainedThroughout first early event.before)
    (current : Explained first early event.after.db)
    (saved : ∀ db, event.after.world.saved = some db →
      event.before.world.saved = some db ∨ db = event.before.db) :
    ExplainedThroughout first (early ++ [event]) event.after := by
  have grows : early ⊆ early ++ [event] := List.subset_append_left _ _
  refine ⟨current.mono grows, fun db isSaved => ?_, fun other member => ?_⟩
  · rcases saved db isSaved with before | rfl
    · exact (explained.saved db before).mono grows
    · exact explained.current.mono grows
  · rcases List.mem_append.mp member with old | new
    · exact (explained.befores other old).mono grows
    · rw [List.mem_singleton.mp new]
      exact explained.current.mono grows

/-! ### Runs -/

section Runs

variable [DecidableEq Pid] {Response : Type} {settings : Portal.Settings}
variable {authn : Passkeys.WebAuthn Response} {tasks : Pid → SystemTask Response}
variable {middle last : Processes Pid (SystemCall Pid) SystemCall.Response SystemOutcome (System Pid)}
variable {events : List (SystemEvent Pid)}

/-- What a statement leaves is explained by what its request was told. -/
theorem SystemRuns.explained_statement (ran : SystemRuns settings authn first tasks early middle)
    {system : System Pid} (explained : ExplainedThroughout first early system) {pid : Pid}
    {part : PortalHistory} (embeds : EmbedsPortal pid part (Event.own pid early)) {statement : Query}
    (fits : statement.FitsAfter part) (moment : Moment) :
    Explained first early (statement.execute moment system.db).2 := by
  constructor
  · intro row member
    rcases statement.members_of_execute moment member with ⟨old, isOld, sameUser, sameProject⟩ | rfl | rfl
    · have admitted := explained.current.members old isOld
      rwa [sameUser, sameProject] at admitted
    · exact SystemRuns.admitted_of_creation ran embeds fits.1 fits.2
    · exact SystemRuns.admitted_of_invite ran embeds fits.1 explained.befores fits.2
  · intro row member
    rcases statement.invites_of_execute moment member with
      ⟨old, isOld, sameProject, sameCreator⟩ | ⟨inviteCode, expiresAt, rfl⟩
    · have issued := explained.current.invites old isOld
      rwa [sameProject, sameCreator] at issued
    · exact SystemRuns.issued_of_tells ran embeds fits.1 fits.2

theorem SystemRuns.explained_portal (ran : SystemRuns settings authn first tasks early middle)
    {event : SystemEvent Pid} (explained : ExplainedThroughout first early event.before) {pid : Pid}
    {call : PortalCall} {part : PortalHistory} (embeds : EmbedsPortal pid part (Event.own pid early))
    (fits : call.FitsAfter part) {circumstance : PortalCall.Circumstance}
    (isAfter : event.after =
      event.before.withWorld pid (call.execute circumstance event.before.world).2) :
    Explained first early event.after.db ∧ ∀ db, event.after.world.saved = some db →
      event.before.world.saved = some db ∨ db = event.before.db := by
  constructor
  · have origin := call.databaseAfter circumstance event.before.world
    have sameDb : event.after.db = (call.execute circumstance event.before.world).2.db := by
      rw [isAfter]
      rfl
    rw [← sameDb] at origin
    generalize event.after.db = db at origin
    cases origin with
    | same => exact explained.current
    | saved isSaved => exact explained.saved db isSaved
    | executed statement moment isStatement =>
        subst isStatement
        exact SystemRuns.explained_statement ran explained embeds fits moment
  · intro db isSaved
    apply call.saved_of_execute circumstance event.before.world
    rw [isAfter] at isSaved
    simpa [System.world, System.withWorld] using isSaved

theorem SystemRuns.explained (ran : SystemRuns settings authn first tasks events last)
    (closed : first.transaction = none) : ExplainedThroughout first events last.shared := by
  refine Processes.Ran.induction
    (motive := fun early processes => ExplainedThroughout first early processes.shared) ran
    (.start closed) ?_
  intro early event late middle next isRun ranEarly explained isProgram isBefore executed
  have fits := Processes.Ran.assertion (isRun ▸ ran)
    ((tasks event.pid).program_fits settings authn event.pid)
  rw [← isBefore] at explained
  obtain ⟨circumstance, executed⟩ := executed
  obtain ⟨pid, request, response, before, after⟩ := event
  cases request with
  | platform request =>
      obtain ⟨sameDb, sameSaved⟩ := SystemCall.execute_platform executed
      refine explained.snoc ?_ fun db isSaved => .inl (sameSaved ▸ isSaved)
      rw [sameDb]
      exact explained.current
  | portal caller request =>
      obtain ⟨rfl, part, embeds, fits⟩ := fits
      obtain ⟨current, saved⟩ := SystemRuns.explained_portal ranEarly explained embeds fits
        (SystemCall.execute_portal executed).2
      exact explained.snoc current saved

end Runs

/-! ### An invite that is taken up -/

/-- A project of one user, and another user. -/
theorem inviteUsers_distinct :
    [(⟨[97], "a", "a"⟩ : User), ⟨[98], "b", "b"⟩].Pairwise
      fun first second => User.conflicts first second = false := by
  simp [User.conflicts]

def inviteSystem : System Nat :=
  { newProjectSystem with
    db :=
      { newProjectSystem.db with
        users := ⟨[⟨[97], "a", "a"⟩, ⟨[98], "b", "b"⟩], inviteUsers_distinct⟩
        access := .single ⟨[97], .copy [1], .owner⟩
        userSessions := ⟨[⟨"s", [97], 10⟩, ⟨"t", [98], 10⟩], by simp [UserSession.conflicts]⟩ } }

/-- The owner issues an invite, and the other user takes it up. -/
def inviteAndJoin : Nat → SystemTask Unit
  | 0 => .portal ⟨⟨some "s", some "01000000000000000000000000000000"⟩, .project .createProjectInvite⟩
  | _ => .portal ⟨⟨some "t", none⟩,
      .user (.joinProjectByInvite (some (generateInviteCode fun _ => ⟨0, inviteChars_pos⟩)))⟩

def joinEvents : List (SystemEvent Nat) :=
  ((startSystem exampleSettings refusingAuthn inviteSystem inviteAndJoin).run SystemCall.execute
    (([0, 0, 1, 1] ++ List.replicate 8 0 ++ List.replicate 5 1).map (·, {}))).1

end Litefunctions
