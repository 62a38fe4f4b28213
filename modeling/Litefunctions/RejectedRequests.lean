import Litefunctions.PortalRoutes
import Litefunctions.PortalSpecs

/-!
# Requests that a middleware answers

Where `AuthMiddleware` answers a request itself, it aborts and no handler runs.
`ProjectMiddleware` does not abort.  Most handlers then panic at the missing
project before they change anything; `DeleteFunction` looks for the project
only after it has deleted the row, and `UpdateEndpoint` does not need one.
-/

namespace Litefunctions

namespace Portal

open Program

/-! ### Admission -/

/-- How the middlewares of a route end: with an answer after which no handler
runs, with an answer after which the handler still runs, or with what they set. -/
inductive Admission where
  | aborted (replies : List Reply)
  | answered (replies : List Reply) (c : Context)
  | admitted (c : Context)

def Admission.isAdmitted : Admission → Bool
  | admitted _ => true
  | _ => false

/-- Both middlewares. -/
def admitToProject (cookies : Cookies) (path : String) : PortalProgram Admission := do
  match ← authMiddleware cookies path with
  | .error replies => return .aborted replies
  | .ok c =>
      match ← projectMiddleware cookies with
      | .error replies => return .answered replies c
      | .ok project => return .admitted { c with project := some project }

/-- `AuthMiddleware` only. -/
def admitUser (cookies : Cookies) (path : String) : PortalProgram Admission := do
  match ← authMiddleware cookies path with
  | .error replies => return .aborted replies
  | .ok c => return .admitted c

/-- The handler behind the middlewares. -/
def Admission.continue (handler : Context → Replies) : Admission → Replies
  | aborted replies => return replies
  | answered replies c => return replies ++ (← handler c)
  | admitted c => handler c

theorem protect_eq (cookies : Cookies) (path : String) (handler : Context → Replies) :
    protect cookies path handler = admitToProject cookies path >>= Admission.continue handler := by
  unfold protect admitToProject
  rw [bind_bind]
  congr 1
  funext admitted
  cases admitted with
  | error replies => rfl
  | ok c =>
      simp only [bind_bind]
      congr 1
      funext project
      cases project <;> rfl

theorem authenticate_eq (cookies : Cookies) (path : String) (handler : Context → Replies) :
    authenticate cookies path handler = admitUser cookies path >>= Admission.continue handler := by
  unfold authenticate admitUser
  rw [bind_bind]
  congr 1
  funext admitted
  cases admitted <;> rfl

theorem continue_answered (handler : Context → Replies) (replies : List Reply) (c : Context)
    (circumstances : Nat → PortalCall.Circumstance) (world : World) :
    ((Admission.continue handler (.answered replies c)).runAlone PortalCall.execute circumstances
        world).2 =
      ((handler c).runAlone PortalCall.execute circumstances world).2 := by
  unfold Admission.continue
  rw [runAlone_bind]
  rfl

/-- The middlewares of a route; passkey routes have none. -/
def Request.admission {Response : Type} (request : Request Response) : PortalProgram Admission :=
  match request.route with
  | .project route => admitToProject request.cookies route.path
  | .user route => admitUser request.cookies route.path
  | .passkey _ => return .admitted ⟨[], "", none⟩

/-! ### Effects -/

/-- Whether a call changes a repository, here or at the vendor. -/
def PortalCall.changesRepository : PortalCall → Bool
  | repo _ (.mkdirAll _) | repo _ (.create _ _) | repo _ (.remove _) | repo _ (.commit _)
  | repo _ .push => true
  | vcs _ .createRepo | vcs _ (.addWebhook _) | vcs _ .addWorkflow => true
  | _ => false

/-- Database, repositories and Function objects are as before. -/
structure Unaffected (before : World) (calls : List (PortalCall × World)) (after : World) :
    Prop where
  database : after.db = before.db
  repositories : ∀ made ∈ calls, made.1.changesRepository = false
  functionObjects : after.cluster = before.cluster

/-- The session cookie names a session that is valid now, of a user. -/
def Cookies.HasSession (cookies : Cookies) (world : World) : Prop :=
  ∃ sessionID, cookies.session = some sessionID ∧ ∃ row ∈ world.db.userSessions.rows,
    row.sessionID = sessionID ∧ world.clock < row.expiresAt ∧ (world.db.user? row.userID).isSome

/-- The update changes an endpoint: a valid one that differs from what is
stored, with no other endpoint of the same name and method. -/
def UpdatesEndpoint (db : Database) (id : Uuid)
    (req : EndpointHandlers.UpdateEndpointRequest) : Prop :=
  ∃ row, db.endpoint? id = some row ∧ EndpointQuery.validScope req.scope = true ∧
    (row.method ≠ req.method ∨ row.scope ≠ req.scope) ∧
    ∀ other ∈ db.endpoints.rows, other.id ≠ id →
      ¬ (other.projectID = row.projectID ∧ other.name = row.name ∧ other.method = req.method)

/-- The handler has an effect without a project. -/
def ProjectRoute.ActsAlone (db : Database) : ProjectRoute → Prop
  | deleteFunction fnID => ∃ bytes, HexText.decode fnID = some bytes ∧
      (db.function? (.copy bytes)).isSome
  | updateEndpoint epID (some req) => ∃ bytes, HexText.decode epID = some bytes ∧
      UpdatesEndpoint db (.copy bytes) req
  | _ => False

/-! ### Updates of endpoints -/

section Endpoints

variable {db : Database} {id : Uuid} {row : Endpoint} {method scope : String}

theorem Endpoint.conflicts_symm (first second : Endpoint) :
    first.conflicts second = second.conflicts first := by
  simp only [Endpoint.conflicts, eq_comm]

theorem endpoint?_some (found : db.endpoint? id = some row) :
    row ∈ db.endpoints.rows ∧ row.id = id := by
  have ⟨member, isID⟩ := Table.find?_some found
  exact ⟨member, of_decide_eq_true isID⟩

theorem eq_of_endpoint? (found : db.endpoint? id = some row) {other : Endpoint}
    (member : other ∈ db.endpoints.rows) (sameID : other.id = id) : other = row := by
  have ⟨rowMember, rowID⟩ := endpoint?_some found
  apply Table.eq_of_conflicts Endpoint.conflicts_symm member rowMember
  simp [Endpoint.conflicts, sameID, rowID]

/-- The update fits unless another endpoint has the name and the new method. -/
theorem modify_endpoint_isSome_iff (found : db.endpoint? id = some row) :
    (db.endpoints.modify (·.id = id) fun row => { row with method, scope }).isSome ↔
      ∀ other ∈ db.endpoints.rows, other.id ≠ id →
        ¬ (other.projectID = row.projectID ∧ other.name = row.name ∧ other.method = method) := by
  obtain ⟨rowMember, rowID⟩ := endpoint?_some found
  let edit (row : Endpoint) : Endpoint := if row.id = id then { row with method, scope } else row
  have editRow : edit row = { row with method, scope } := if_pos rowID
  have editOther {other : Endpoint} (otherID : other.id ≠ id) : edit other = other := if_neg otherID
  have modifies : (db.endpoints.modify (·.id = id) fun row => { row with method, scope }).isSome ↔
      (db.endpoints.rows.map edit).Pairwise fun first second => first.conflicts second = false := by
    unfold Table.modify
    simp only [decide_eq_true_eq]
    split
    · next fits => exact iff_of_true rfl fits
    · next unfit => exact iff_of_false Bool.false_ne_true unfit
  rw [modifies, List.pairwise_map]
  constructor
  · rintro apart other member otherID ⟨sameProject, sameName, sameMethod⟩
    have symm : Std.Symm fun first second => (edit first).conflicts (edit second) = false :=
      ⟨fun first second apart => by rwa [Endpoint.conflicts_symm]⟩
    have different : other ≠ row := fun same => otherID (same ▸ rowID)
    have clash := apart.forall member rowMember different
    rw [editOther otherID, editRow] at clash
    simp [Endpoint.conflicts, sameProject, sameName, sameMethod] at clash
  · intro free
    refine db.endpoints.distinct.imp_of_mem @fun first second firstMember secondMember apart => ?_
    have clashFree {other : Endpoint} (member : other ∈ db.endpoints.rows) (otherID : other.id ≠ id) :
        other.conflicts (edit row) = false := by
      rw [editRow]
      have noClash := free other member otherID
      simp only [Endpoint.conflicts, decide_eq_false_iff_not, not_or]
      exact ⟨fun same => otherID (same.trans rowID), noClash⟩
    by_cases firstID : first.id = id <;> by_cases secondID : second.id = id
    · simp [Endpoint.conflicts, firstID, secondID] at apart
    · rw [eq_of_endpoint? found firstMember firstID, editOther secondID, Endpoint.conflicts_symm]
      exact clashFree secondMember secondID
    · rw [eq_of_endpoint? found secondMember secondID, editOther firstID]
      exact clashFree firstMember firstID
    · rwa [editOther firstID, editOther secondID]

/-- What is not an update leaves the database as it is. -/
theorem updateEndpoint_kept {req : EndpointHandlers.UpdateEndpointRequest}
    (noUpdate : ¬ UpdatesEndpoint db id req) (moment : Moment) :
    ((EndpointQuery.updateEndpointMethodScope id req.method req.scope).execute moment db).2 = db := by
  simp only [EndpointQuery.execute]
  cases found : db.endpoint? id with
  | none => rfl
  | some row =>
      cases valid : EndpointQuery.validScope req.scope with
      | false => rfl
      | true =>
          simp only [Bool.not_true, Bool.false_eq_true, if_false]
          cases modified : db.endpoints.modify (·.id = id)
              fun row => { row with method := req.method, scope := req.scope } with
          | none => rfl
          | some endpoints =>
              have free := (modify_endpoint_isSome_iff found).mp (Option.isSome_of_eq_some modified)
              have same : row.method = req.method ∧ row.scope = req.scope := by
                by_contra differs
                rw [not_and_or] at differs
                exact noUpdate ⟨row, found, valid, differs, free⟩
              have keptRows : endpoints.rows = db.endpoints.rows := by
                rw [Table.rows_modify modified]
                refine (List.map_congr_left fun other member => ?_).trans (List.map_id _)
                by_cases otherID : other.id = id
                · have rowID := (endpoint?_some found).2
                  rw [eq_of_endpoint? found member otherID, if_pos (decide_eq_true rowID), ← same.1,
                    ← same.2]
                  rfl
                · simp [otherID]
              have keptTable : endpoints = db.endpoints := Table.eq_of_rows keptRows
              rw [keptTable]

end Endpoints

/-! ### Calls without effect -/

/-- Database and Function objects are kept while time passes. -/
structure Kept (first after : World) : Prop where
  database : after.db = first.db
  functionObjects : after.cluster = first.cluster
  clock : first.clock ≤ after.clock

theorem Kept.refl (world : World) : Kept world world :=
  ⟨rfl, rfl, le_refl _⟩

theorem Kept.trans {first middle last : World} (before : Kept first middle)
    (after : Kept middle last) : Kept first last :=
  ⟨after.database.trans before.database, after.functionObjects.trans before.functionObjects,
    before.clock.trans after.clock⟩

/-- The call changes nothing. -/
def PortalCall.IsQuiet (request : PortalCall) : Prop :=
  request.reads = true ∧ request.changesRepository = false ∧
    ∀ req, request ≠ .createFunctionCRD req

theorem clock_le_execute (request : PortalCall) (circumstance : PortalCall.Circumstance)
    (world : World) : world.clock ≤ (PortalCall.execute request circumstance world).2.clock := by
  have later : world.clock ≤ world.clock + circumstance.elapsed := by
    omega
  cases request <;> simp only [PortalCall.execute] <;>
    first | exact later | cases circumstance.fault <;> exact later

theorem kept_execute {request : PortalCall} (quiet : request.IsQuiet)
    (circumstance : PortalCall.Circumstance) (world : World) :
    Kept world (PortalCall.execute request circumstance world).2 := by
  refine ⟨PortalCall.db_execute_of_reads quiet.1 circumstance world, ?_,
    clock_le_execute request circumstance world⟩
  cases request with
  | createFunctionCRD req => exact absurd rfl (quiet.2.2 req)
  | query | begin | commit =>
      simp only [PortalCall.execute]
      cases circumstance.fault <;> rfl
  | _ => rfl

section Rules

variable {Result : Type} {allowed : PortalCall → World → Prop} {post : Result → World → Prop}
variable {first world : World} {program : PortalProgram Result}

/-- A statement that only reads, at a moment that is not past. -/
theorem ensures_read {statement : Query}
    {next : Except DbError statement.Value → PortalProgram Result}
    (reads : statement.reads = true) (isAllowed : allowed (.query statement) world)
    (failed : ∀ after, Kept world after → Ensures allowed post (next (.error .failed)) after)
    (answered : ∀ (moment : Moment) (after : World), Kept world after → world.clock ≤ moment.now →
      Ensures allowed post (next (statement.execute moment world.db).1) after) :
    Ensures allowed post (call (.query statement) next) world := by
  apply And.intro isAllowed
  intro circumstance
  have quiet : (PortalCall.query statement).IsQuiet := ⟨reads, rfl, fun req => PortalCall.noConfusion⟩
  have kept := kept_execute quiet circumstance world
  revert kept
  simp only [PortalCall.execute]
  cases circumstance.fault with
  | none =>
      intro kept
      have notPast : world.clock ≤ world.clock + circumstance.elapsed := by
        omega
      exact answered _ _ kept notPast
  | refused => exact failed _
  | lost => exact failed _

/-- The program changes no repository and ends with everything kept. -/
abbrev Harmless (first : World) (program : PortalProgram Result) (world : World) : Prop :=
  Ensures (fun request _ => request.changesRepository = false) (fun _ after => Kept first after)
    program world

theorem harmless_of_quiet
    (along : program.Along (fun _ request => request.IsQuiet) (fun _ _ => True) [])
    (kept : Kept first world) : Harmless first program world := by
  have ensures : program.Ensures PortalCall.execute
      (fun request after => request.IsQuiet ∧ Kept first after) (fun _ after => Kept first after)
      world := along.ensures
    (fun request circumstance after quiet before =>
      before.trans (kept_execute quiet circumstance after)) kept
  exact ensures.imp (fun request after both => both.1.2.1) fun _ _ => id

end Rules

/-! ### Handlers without a project -/

section NoProject

variable {c : Context} {first world : World}

theorem deleteFunction_harmless {fnID : String}
    (noRow : ¬ (ProjectRoute.deleteFunction fnID).ActsAlone first.db) (kept : Kept first world) :
    Harmless first (FunctionHandlers.deleteFunction c fnID) world := by
  unfold FunctionHandlers.deleteFunction
  cases decoded : HexText.decode fnID with
  | none => exact kept
  | some bytes =>
      have notFound : world.db.function? (.copy bytes) = none := by
        rw [kept.database]
        by_contra found
        exact noRow ⟨bytes, decoded, Option.isSome_iff_ne_none.mpr found⟩
      refine ensures_read rfl rfl (fun after later => kept.trans later) fun moment after later _ => ?_
      simp only [Query.execute, FunctionQuery.execute, Option.bind_some, notFound, oneRow]
      exact kept.trans later

theorem updateEndpoint_harmless {epID : String} {body : Option EndpointHandlers.UpdateEndpointRequest}
    (noUpdate : ¬ (ProjectRoute.updateEndpoint epID body).ActsAlone first.db)
    (kept : Kept first world) :
    Harmless first (EndpointHandlers.updateEndpoint epID body) world := by
  unfold EndpointHandlers.updateEndpoint
  cases decoded : HexText.decode epID with
  | none => exact kept
  | some bytes =>
      cases body with
      | none => exact kept
      | some req =>
          have same (moment : Moment) := updateEndpoint_kept
            (fun updates : UpdatesEndpoint world.db (.copy bytes) req =>
              noUpdate ⟨bytes, decoded, kept.database ▸ updates⟩) moment
          apply And.intro rfl
          intro circumstance
          have later : Kept world (PortalCall.execute (.query (.endpoint
              (.updateEndpointMethodScope (.copy bytes) req.method req.scope))) circumstance world).2 := by
            refine ⟨?_, ?_, clock_le_execute _ circumstance world⟩ <;> simp only [PortalCall.execute]
              <;> cases circumstance.fault
            all_goals first | rfl | exact same _
          revert later
          generalize PortalCall.execute (.query (.endpoint
              (.updateEndpointMethodScope (.copy bytes) req.method req.scope))) circumstance world =
            answered
          intro later
          cases answered.1 <;> exact kept.trans later

theorem mustGetProject_none (noProject : c.project = none) (handler : ProjectContext → Replies) :
    c.mustGetProject handler = done [.panicked] := by
  unfold Context.mustGetProject
  rw [noProject]
  rfl

theorem harmless_mustGetProject (noProject : c.project = none)
    (handler : ProjectContext → Replies) (kept : Kept first world) :
    Harmless first (c.mustGetProject handler) world := by
  rw [mustGetProject_none noProject]
  exact kept

private theorem query_isQuiet {statement : Query} (reads : statement.reads = true) :
    (PortalCall.query statement).IsQuiet :=
  ⟨reads, rfl, fun _ => PortalCall.noConfusion⟩

theorem getFunction_quiet (noProject : c.project = none) (fnID : String) :
    (FunctionHandlers.getFunction c fnID).Along (fun _ request => request.IsQuiet)
      (fun _ _ => True) [] := by
  unfold FunctionHandlers.getFunction
  cases HexText.decode fnID with
  | none => trivial
  | some bytes =>
      apply And.intro (query_isQuiet rfl)
      intro response
      cases response with
      | error err => trivial
      | ok f =>
          simp only [mustGetProject_none noProject]
          trivial

theorem updateFunction_quiet (noProject : c.project = none) (fnID : String)
    (body : FunctionHandlers.UpdateBody) :
    (FunctionHandlers.updateFunction c fnID body).Along (fun _ request => request.IsQuiet)
      (fun _ _ => True) [] := by
  unfold FunctionHandlers.updateFunction
  cases HexText.decode fnID with
  | none => trivial
  | some bytes =>
      simp only
      split
      · trivial
      · apply And.intro (query_isQuiet rfl)
        intro response
        cases response with
        | error err => trivial
        | ok f =>
            simp only [mustGetProject_none noProject]
            trivial

/-- Without a project a handler has no effect unless it acts alone. -/
theorem handle_harmless {settings : Settings} {cookies : Cookies} {route : ProjectRoute}
    (notAlone : ¬ route.ActsAlone first.db) (noProject : c.project = none)
    (kept : Kept first world) : Harmless first (route.handle settings cookies c) world := by
  cases route with
  | deleteFunction fnID => exact deleteFunction_harmless notAlone kept
  | updateEndpoint epID body => exact updateEndpoint_harmless notAlone kept
  | listProjects =>
      refine harmless_of_quiet ⟨query_isQuiet rfl, fun response => ?_⟩ kept
      cases response <;> trivial
  | getFunction fnID => exact harmless_of_quiet (getFunction_quiet noProject fnID) kept
  | updateFunction fnID body => exact harmless_of_quiet (updateFunction_quiet noProject fnID body) kept
  | getEndpoint epID =>
      refine harmless_of_quiet ?_ kept
      show (EndpointHandlers.getEndpoint epID).Along _ _ _
      unfold EndpointHandlers.getEndpoint
      cases HexText.decode epID with
      | none => trivial
      | some bytes =>
          apply And.intro (query_isQuiet rfl)
          intro response
          cases response <;> trivial
  | actionsStatus params rounds =>
      have quiet : PortalCall.newVendorClient.IsQuiet := ⟨rfl, rfl, fun _ => PortalCall.noConfusion⟩
      refine harmless_of_quiet ⟨quiet, fun response => ?_⟩ kept
      cases response with
      | error text => trivial
      | ok _ =>
          simp only [mustGetProject_none noProject]
          trivial
  | configuration | dataPage | deleteProject => exact kept
  | functionsPage | endpointsPage | getProject | syncProject | createProjectInvite
  | listProjectAccess | updateProjectAccess | revokeProjectAccess | createFunction | listFunctions
  | listEndpoints =>
      exact harmless_mustGetProject noProject _ kept

end NoProject

/-! ### Admission without effect -/

theorem getUserSession_ensures (sessionID : String) (world : World) :
    Ensures (fun request _ => request.changesRepository = false)
      (fun user after => Kept world after ∧ (user.isSome →
        ∃ row ∈ world.db.userSessions.rows, row.sessionID = sessionID ∧
          world.clock < row.expiresAt ∧ (world.db.user? row.userID).isSome))
      (getUserSession sessionID) world := by
  refine ensures_read rfl rfl (fun after kept => ⟨kept, by simp⟩)
    fun moment after kept notPast => ?_
  simp only [Query.execute, AuthQuery.execute]
  cases found : world.db.userSessions.find? fun row =>
      row.sessionID = sessionID ∧ moment.now < row.expiresAt with
  | none => exact ⟨kept, by simp⟩
  | some row =>
      have ⟨member, isRow⟩ := Table.find?_some found
      obtain ⟨sameID, valid⟩ := of_decide_eq_true isRow
      refine ensures_read rfl rfl (fun last later => ⟨kept.trans later, by simp⟩)
        fun moment last later _ => ?_
      simp only [Query.execute, AuthQuery.execute, kept.database]
      cases userFound : world.db.user? row.userID with
      | none => exact ⟨kept.trans later, by simp⟩
      | some user =>
          refine ⟨kept.trans later, fun _ => ⟨row, member, sameID, notPast.trans_lt valid, ?_⟩⟩
          rw [userFound]
          rfl

theorem authMiddleware_ensures (cookies : Cookies) (path : String) (world : World) :
    Ensures (fun request _ => request.changesRepository = false)
      (fun result after => Kept world after ∧
        ∀ c, result = .ok c → cookies.HasSession world ∧ c.project = none)
      (authMiddleware cookies path) world := by
  unfold authMiddleware
  cases hasCookie : cookies.session with
  | none => exact ⟨.refl world, by simp⟩
  | some sessionID =>
      refine ensures_bind.mpr ((getUserSession_ensures sessionID world).imp (fun _ _ => id) ?_)
      rintro user after ⟨kept, valid⟩
      cases user with
      | none => exact ⟨kept, by simp⟩
      | some user =>
          refine ⟨kept, fun c isContext => ⟨⟨sessionID, hasCookie, valid rfl⟩, ?_⟩⟩
          rw [← Except.ok.inj isContext]

theorem projectMiddleware_harmless (cookies : Cookies) {first world : World}
    (kept : Kept first world) : Harmless first (projectMiddleware cookies) world := by
  refine harmless_of_quiet ?_ kept
  unfold projectMiddleware
  cases cookies.project with
  | none => trivial
  | some projectIDHex =>
      simp only
      cases HexText.decode projectIDHex with
      | none => trivial
      | some projectIDBytes =>
          simp only
          split
          · trivial
          · apply And.intro (query_isQuiet rfl)
            intro response
            cases response with
            | error err => trivial
            | ok proj =>
                have quiet : (PortalCall.repo proj.name .new).IsQuiet :=
                  ⟨rfl, rfl, fun _ => PortalCall.noConfusion⟩
                apply And.intro quiet
                intro isNew
                cases isNew <;> trivial

/-- The middlewares change nothing, and go on after their own answer only for a
session, without a project. -/
theorem admission_ensures {Response : Type} (request : Request Response) (world : World) :
    Ensures (fun request _ => request.changesRepository = false)
      (fun admission after => Kept world after ∧
        ∀ replies c, admission = .answered replies c →
          request.cookies.HasSession world ∧ c.project = none ∧
            ∃ route, request.route = .project route)
      request.admission world := by
  obtain ⟨cookies, route⟩ := request
  cases route with
  | passkey route => exact ⟨.refl world, by simp⟩
  | user route =>
      refine ensures_bind.mpr ((authMiddleware_ensures cookies route.path world).imp
        (fun _ _ => id) ?_)
      rintro (replies | c) after ⟨kept, -⟩
      · exact ⟨kept, by simp⟩
      · exact ⟨kept, by simp⟩
  | project route =>
      refine ensures_bind.mpr ((authMiddleware_ensures cookies route.path world).imp
        (fun _ _ => id) ?_)
      rintro (replies | c) after ⟨kept, valid⟩
      · exact ⟨kept, by simp⟩
      · refine ensures_bind.mpr ((projectMiddleware_harmless cookies kept).imp (fun _ _ => id) ?_)
        rintro (replies | project) last keptLast
        · apply And.intro keptLast
          intro answered other isAnswered
          obtain ⟨-, rfl⟩ := Admission.answered.inj isAnswered
          exact ⟨(valid c rfl).1, (valid c rfl).2, route, rfl⟩
        · exact ⟨keptLast, by simp⟩

/-! ### Requests -/

section Requests

variable {Response : Type} (settings : Settings) (authn : Passkeys.WebAuthn Response)

/-- The handler of a route. -/
def Request.handler (request : Request Response) (c : Context) : Replies :=
  match request.route with
  | .project route => route.handle settings request.cookies c
  | .user route => route.handle settings request.cookies c
  | .passkey route => route.handle settings authn request.cookies

theorem serve_eq (request : Request Response) :
    serve settings authn request =
      request.admission >>= Admission.continue (request.handler settings authn) := by
  obtain ⟨cookies, route⟩ := request
  cases route with
  | project route => exact protect_eq cookies route.path _
  | user route => exact authenticate_eq cookies route.path _
  | passkey route => rfl

/-- Wherever a middleware answers the request itself, the handler has no
effect. -/
def RejectedUnaffected (request : Request Response) (world : World) : Prop :=
  ∀ circumstances : Nat → PortalCall.Circumstance,
    (request.admission.runAlone PortalCall.execute circumstances world).1.isAdmitted = false →
      Unaffected world
        ((serve settings authn request).callsAlone PortalCall.execute circumstances world)
        ((serve settings authn request).runAlone PortalCall.execute circumstances world).2

def Route.ActsAlone (db : Database) : Route Response → Prop
  | .project route => route.ActsAlone db
  | _ => False

variable {settings authn}

theorem rejectedUnaffected_of_notAlone {request : Request Response} {world : World}
    (notAlone : ¬ (request.cookies.HasSession world ∧ request.route.ActsAlone world.db)) :
    RejectedUnaffected settings authn request world := by
  intro circumstances rejected
  have admission := admission_ensures request world
  have quietCalls := admission.calls circumstances
  obtain ⟨kept, answers⟩ := admission.ends circumstances
  rw [serve_eq, runAlone_bind, callsAlone_bind]
  cases result : (request.admission.runAlone PortalCall.execute circumstances world).1 with
  | aborted replies =>
      refine ⟨kept.database, fun made member => ?_, kept.functionObjects⟩
      rcases List.mem_append.mp member with early | late
      · exact quietCalls made early
      · cases late
  | admitted c =>
      rw [result] at rejected
      cases rejected
  | answered replies c =>
      obtain ⟨hasSession, noProject, route, isProject⟩ := answers replies c result
      have routeNotAlone : ¬ route.ActsAlone world.db := fun alone =>
        notAlone ⟨hasSession, isProject ▸ alone⟩
      have handled : Harmless world (request.handler settings authn c)
          (request.admission.runAlone PortalCall.execute circumstances world).2 := by
        unfold Request.handler
        rw [isProject]
        exact handle_harmless routeNotAlone noProject kept
      have continued : Harmless world (Admission.continue (request.handler settings authn)
            (.answered replies c))
          (request.admission.runAlone PortalCall.execute circumstances world).2 :=
        ensures_bind.mpr handled
      have last := continued.ends (request.admission.choicesAfter PortalCall.execute circumstances world)
      refine ⟨last.database, fun made member => ?_, last.functionObjects⟩
      rcases List.mem_append.mp member with early | late
      · exact quietCalls made early
      · exact continued.calls _ made late

/-! ### Runs in which nothing else fails -/

/-- Nothing fails and no time passes. -/
def calm : Nat → PortalCall.Circumstance :=
  fun _ => {}

theorem execute_query_calm (statement : Query) (world : World) :
    PortalCall.execute (.query statement) {} world =
      ((statement.execute ⟨world.clock, .copy []⟩ world.db).1,
        { world with db := (statement.execute ⟨world.clock, .copy []⟩ world.db).2 }) := by
  simp [PortalCall.execute]

/-- The project query fails. -/
def projectUnavailable : Nat → PortalCall.Circumstance
  | 2 => { fault := .refused }
  | _ => {}

theorem exists_authenticated {cookies : Cookies} {world : World} (hasSession : cookies.HasSession world)
    (path : String) :
    ∃ c : Context, c.project = none ∧ ∀ {Result : Type} (next : Except (List Reply) Context →
      PortalProgram Result) (circumstances : Nat → PortalCall.Circumstance),
      circumstances 0 = {} → circumstances 1 = {} →
      (authMiddleware cookies path >>= next).runAlone PortalCall.execute circumstances world =
        (next (.ok c)).runAlone PortalCall.execute (fun index => circumstances (index + 2)) world := by
  obtain ⟨sessionID, hasCookie, row, member, sameID, valid, userSome⟩ := hasSession
  obtain ⟨user, userFound⟩ := Option.isSome_iff_exists.mp userSome
  have found : (world.db.userSessions.find? fun row =>
      row.sessionID = sessionID ∧ world.clock < row.expiresAt) = some row := by
    refine Table.find?_eq_some (fun first second => ?_) member (by simpa using ⟨sameID, valid⟩) ?_
    · simp only [UserSession.conflicts, eq_comm]
    · intro other isWanted
      obtain ⟨otherID, -⟩ := of_decide_eq_true isWanted
      exact decide_eq_true (otherID.trans sameID.symm)
  refine ⟨{ userID := row.userID, userName := user.name, project := none }, rfl, ?_⟩
  intro Result next circumstances first second
  unfold authMiddleware getUserSession
  simp only [hasCookie, perform_bind, call_bind, runAlone, first, execute_query_calm, Query.execute,
    AuthQuery.execute, found, oneRow, second, Nat.zero_add, userFound]
  rfl

/-- In some circumstances `ProjectMiddleware` answers a request itself, and all
goes well from then on. -/
def CanBeAnswered (cookies : Cookies) (path : String) (world : World) : Prop :=
  ∃ circumstances replies, ∃ c : Context, c.project = none ∧
    ∀ {Result : Type} (next : Admission → PortalProgram Result),
      (admitToProject cookies path >>= next).runAlone PortalCall.execute circumstances world =
        (next (.answered replies c)).runAlone PortalCall.execute calm world

theorem canBeAnswered {cookies : Cookies} {world : World} (hasSession : cookies.HasSession world)
    (path : String) : CanBeAnswered cookies path world := by
  obtain ⟨c, noProject, authenticated⟩ := exists_authenticated hasSession path
  have withoutCall (replies : List Reply)
      (noCall : projectMiddleware cookies = done (.error replies)) :
      CanBeAnswered cookies path world := by
    refine ⟨calm, replies, c, noProject, fun next => ?_⟩
    unfold admitToProject
    rw [bind_bind, authenticated _ calm rfl rfl, noCall]
    rfl
  unfold projectMiddleware at withoutCall
  cases hasCookie : cookies.project with
  | none =>
      rw [hasCookie] at withoutCall
      exact withoutCall _ rfl
  | some projectIDHex =>
      cases decoded : HexText.decode projectIDHex with
      | none =>
          simp only [hasCookie, decoded] at withoutCall
          exact withoutCall _ rfl
      | some projectIDBytes =>
          by_cases long : projectIDBytes.length = 16
          · refine ⟨projectUnavailable, [.error 404 "project not found"], c, noProject, ?_⟩
            intro Result next
            unfold admitToProject
            rw [bind_bind, authenticated _ projectUnavailable rfl rfl]
            simp [projectMiddleware, hasCookie, decoded, long, runAlone, PortalCall.execute,
              projectUnavailable]
            rfl
          · simp only [hasCookie, decoded, if_pos long] at withoutCall
            exact withoutCall _ rfl

theorem deleteFunction_calm {fnID : String} {c : Context} {world : World}
    (alone : (ProjectRoute.deleteFunction fnID).ActsAlone world.db) (noProject : c.project = none) :
    ((FunctionHandlers.deleteFunction c fnID).runAlone PortalCall.execute calm world).2.db ≠
      world.db := by
  obtain ⟨bytes, decoded, isSome⟩ := alone
  obtain ⟨f, found⟩ := Option.isSome_iff_exists.mp isSome
  have ⟨member, isRow⟩ := Table.find?_some found
  intro same
  have sameFunctions : (world.db.functions.remove (·.id = .copy bytes)).rows =
      world.db.functions.rows := by
    rw [← congrArg (·.functions.rows) same]
    simp [FunctionHandlers.deleteFunction, decoded, runAlone, calm, execute_query_calm,
      Query.execute, FunctionQuery.execute, found, oneRow, mustGetProject_none noProject]
  rw [← sameFunctions] at member
  have kept := (Table.mem_remove.mp member).2
  rw [isRow] at kept
  cases kept

theorem updateEndpoint_calm {epID : String} {body : Option EndpointHandlers.UpdateEndpointRequest}
    {world : World} (alone : (ProjectRoute.updateEndpoint epID body).ActsAlone world.db) :
    ((EndpointHandlers.updateEndpoint epID body).runAlone PortalCall.execute calm world).2.db ≠
      world.db := by
  cases body with
  | none => cases alone
  | some req =>
      obtain ⟨bytes, decoded, row, found, valid, differs, free⟩ := alone
      have ⟨member, isRow⟩ := endpoint?_some found
      obtain ⟨endpoints, modified⟩ :=
        Option.isSome_iff_exists.mp ((@modify_endpoint_isSome_iff _ _ _ _ req.scope found).mpr free)
      intro same
      have sameEndpoints : endpoints.rows = world.db.endpoints.rows := by
        rw [← congrArg (·.endpoints.rows) same]
        simp [EndpointHandlers.updateEndpoint, decoded, runAlone, calm, execute_query_calm,
          Query.execute, EndpointQuery.execute, found, valid, modified]
      rw [Table.rows_modify modified] at sameEndpoints
      have unchanged := List.map_inj_left.mp (sameEndpoints.trans (List.map_id _).symm) row member
      rw [if_pos (decide_eq_true isRow)] at unchanged
      have sameMethod : req.method = row.method := congrArg Endpoint.method unchanged
      have sameScope : req.scope = row.scope := congrArg Endpoint.scope unchanged
      rcases differs with otherMethod | otherScope
      · exact otherMethod sameMethod.symm
      · exact otherScope sameScope.symm

theorem handle_calm {settings : Settings} {cookies : Cookies} {route : ProjectRoute} {c : Context}
    {world : World} (alone : route.ActsAlone world.db) (noProject : c.project = none) :
    ((route.handle settings cookies c).runAlone PortalCall.execute calm world).2.db ≠ world.db := by
  cases route with
  | deleteFunction fnID => exact deleteFunction_calm alone noProject
  | updateEndpoint epID body => exact updateEndpoint_calm alone
  | _ => cases alone

/-- Requests that a middleware answers have no effect, whatever fails, unless
they come with a valid session and delete a function or change an endpoint. -/
theorem rejectedUnaffected_iff (settings : Settings) (authn : Passkeys.WebAuthn Response)
    (request : Request Response) (world : World) :
    RejectedUnaffected settings authn request world ↔
      ¬ (request.cookies.HasSession world ∧ request.route.ActsAlone world.db) := by
  refine ⟨?_, rejectedUnaffected_of_notAlone⟩
  rintro unaffected ⟨hasSession, alone⟩
  obtain ⟨cookies, route⟩ := request
  cases route with
  | user route => cases alone
  | passkey route => cases alone
  | project route =>
      obtain ⟨circumstances, replies, c, noProject, answered⟩ :=
        canBeAnswered hasSession route.path
      have isAnswered := answered done
      rw [bind_done] at isAnswered
      have database := (unaffected circumstances (congrArg (·.1.isAdmitted) isAnswered)).database
      rw [serve_eq] at database
      have handled := answered (Admission.continue fun c => route.handle settings cookies c)
      apply @handle_calm settings cookies _ _ _ alone noProject
      rw [← database]
      exact (congrArg PortalCall.World.db (continue_answered _ _ _ _ _)).symm.trans
        (congrArg (·.2.db) handled).symm

end Requests

/-! ### A deletion without a project -/

def exampleSettings : Settings where
  fqdn := "lite.example"
  vcsToken := "token"
  ingestorUrl := "https://lite.example"
  sessionExpiry := some (24 * 3600 * second)
  toLower := Char.toLower

/-- A library that refuses every ceremony. -/
def refusingAuthn : Passkeys.WebAuthn Unit where
  beginRegistration := fun _ _ => .error "refused"
  finishRegistration := fun _ _ _ _ => .error "refused"
  beginLogin := fun _ _ => .error "refused"
  finishLogin := fun _ _ _ _ => .error "refused"

/-- A world with one function, of a user with a session. -/
def oneFunctionWorld : World where
  db :=
    { Database.empty with
      users := .single ⟨[97], "a", "a"⟩
      projects := .single ⟨.copy [1], "shop", [97], 0⟩
      functions := .single ⟨.copy [2], .copy [1], "total", "lua", "functions/lua/total.lua", false, [97], 0⟩
      userSessions := .single ⟨"s", [97], 10⟩ }
  saved := none
  cluster := { functions := .empty, deployments := .empty, services := .empty, clock := 0 }
  clock := 0

/-- The cookie of the project is missing. -/
def deletionWithoutProject : Request Unit where
  cookies := { session := some "s", project := none }
  route := .project (.deleteFunction "02000000000000000000000000000000")

theorem deletionWithoutProject_affects :
    ¬ RejectedUnaffected exampleSettings refusingAuthn deletionWithoutProject oneFunctionWorld := by
  intro unaffected
  have rejected := (unaffected calm rfl).database
  have deleted : ((serve exampleSettings refusingAuthn deletionWithoutProject).runAlone
      PortalCall.execute calm oneFunctionWorld).2.db.functions.rows = [] := rfl
  rw [rejected] at deleted
  cases deleted

end Portal

end Litefunctions
