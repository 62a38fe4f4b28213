import Litefunctions.PortalRequests
import Litefunctions.ProgramSpecs

/-!
# Specifications of the portal's calls

The rules for programs of the portal: what a statement answers and leaves
behind, which calls leave the database as it is, and how a run goes on where
nothing fails.
-/

namespace Litefunctions

namespace Portal

open Program

/-- The assertion that a program ensures when it runs alone. -/
abbrev Ensures {Result : Type} (allowed : PortalCall → World → Prop)
    (post : Result → World → Prop) (program : PortalProgram Result) (world : World) : Prop :=
  program.Ensures PortalCall.execute allowed post world

theorem mustGetProject_makes {quiet : PortalCall → Prop} (c : Context)
    {handler : ProjectContext → Replies}
    (makes : ∀ project, c.project = some project → (handler project).Makes quiet) :
    (c.mustGetProject handler).Makes quiet := by
  unfold Context.mustGetProject
  cases isProject : c.project with
  | none => trivial
  | some project => exact makes project isProject

/-! ### Calls that only read -/

def AccessQuery.reads : AccessQuery → Bool
  | listProjectsForUser _ | getUserProjectRole _ _ | getValidInviteByCode _
  | listUsersForProject _ => true
  | _ => false

def ProjectQuery.reads : ProjectQuery → Bool
  | getProjectByID _ => true
  | createProject _ _ => false

/-- A null id selects no row to change. -/
def FunctionQuery.reads : FunctionQuery → Bool
  | getFunctionByID _ | listFunctionsForProject _ | listFunctionsSearchPaged _ _ _ _ => true
  | updateFunctionPath id _ | updateFunctionIsAsync id _ => id.isNone
  | _ => false

def EndpointQuery.reads : EndpointQuery → Bool
  | listEndpointsForProject _ | getEndpointByID _ | listEndpointsSearch _ _ _ _ => true
  | _ => false

def AuthQuery.reads : AuthQuery → Bool
  | getUserByName _ | getUserByID _ | getCredentialsForUser _ | getSession _
  | getUserSession _ => true
  | _ => false

def Query.reads : Query → Bool
  | access query => query.reads
  | project query => query.reads
  | function query => query.reads
  | endpoint query => query.reads
  | auth query => query.reads

/-- Whether a call leaves the database as it is. -/
def PortalCall.reads : PortalCall → Bool
  | query statement => statement.reads
  | begin | commit | rollback => false
  | _ => true

theorem Query.execute_of_reads {statement : Query} (reads : statement.reads = true)
    (moment : Moment) (db : Database) : (statement.execute moment db).2 = db := by
  cases statement with
  | access query => cases query <;> first | rfl | cases reads
  | project query => cases query <;> first | rfl | cases reads
  | function query =>
      cases query with
      | updateFunctionPath id path => cases id <;> first | rfl | cases reads
      | updateFunctionIsAsync id isAsync => cases id <;> first | rfl | cases reads
      | _ => first | rfl | cases reads
  | endpoint query => cases query <;> first | rfl | cases reads
  | auth query => cases query <;> first | rfl | cases reads

theorem PortalCall.db_execute_of_reads {call : PortalCall} (reads : call.reads = true)
    (circumstance : Circumstance) (world : World) :
    (PortalCall.execute call circumstance world).2.db = world.db := by
  cases call with
  | query statement =>
      simp only [PortalCall.execute]
      cases circumstance.fault with
      | none => exact Query.execute_of_reads reads _ _
      | refused => rfl
      | lost => exact Query.execute_of_reads reads _ _
  | begin => cases reads
  | commit => cases reads
  | rollback => cases reads
  | createFunctionCRD req =>
      simp only [PortalCall.execute]
      cases circumstance.fault <;> rfl
  | _ => rfl

/-! ### Rules -/

variable {Result : Type} {allowed : PortalCall → World → Prop} {post : Result → World → Prop}
variable {world : World}

/-- A statement that is not answered with the error of the environment is
answered by the database. -/
theorem ensures_query {statement : Query}
    {next : Except DbError statement.Value → PortalProgram Result}
    (isAllowed : allowed (.query statement) world)
    (failed : ∀ after : World,
      after.db = world.db ∨ (∃ moment, after.db = (statement.execute moment world.db).2) →
        Ensures allowed post (next (.error .failed)) after)
    (answered : ∀ (moment : Moment) (after : World),
      after.db = (statement.execute moment world.db).2 →
        Ensures allowed post (next (statement.execute moment world.db).1) after) :
    Ensures allowed post (call (.query statement) next) world := by
  apply And.intro isAllowed
  intro circumstance
  simp only [PortalCall.execute]
  cases circumstance.fault with
  | none => exact answered _ _ rfl
  | refused => exact failed _ (.inl rfl)
  | lost => exact failed _ (.inr ⟨_, rfl⟩)

/-- A statement that only reads. -/
theorem ensures_reading {statement : Query}
    {next : Except DbError statement.Value → PortalProgram Result}
    (reads : statement.reads = true) (isAllowed : allowed (.query statement) world)
    (failed : ∀ after : World, after.db = world.db →
      Ensures allowed post (next (.error .failed)) after)
    (answered : ∀ (moment : Moment) (after : World), after.db = world.db →
      Ensures allowed post (next (statement.execute moment world.db).1) after) :
    Ensures allowed post (call (.query statement) next) world := by
  refine ensures_query isAllowed (fun after kept => failed after ?_) fun moment after afterEq => ?_
  · rcases kept with kept | ⟨moment, kept⟩
    · exact kept
    · rw [kept, Query.execute_of_reads reads]
  · exact answered moment after (afterEq.trans (Query.execute_of_reads reads moment world.db))

/-- Another call that leaves the database as it is, with any answer. -/
theorem ensures_keeping {request : PortalCall} {next : request.Response → PortalProgram Result}
    (reads : request.reads = true) (isAllowed : allowed request world)
    (answered : ∀ (response : request.Response) (after : World), after.db = world.db →
      Ensures allowed post (next response) after) :
    Ensures allowed post (call request next) world :=
  ⟨isAllowed, fun circumstance => answered _ _ (PortalCall.db_execute_of_reads reads circumstance world)⟩

/-- A program whose calls all leave the database as it is. -/
theorem ensures_of_quiet {quiet : PortalCall → Prop} {program : PortalProgram Result}
    (along : program.Along (fun _ request => quiet request) (fun _ _ => True) [])
    (reads : ∀ request, quiet request → request.reads = true)
    (isAllowed : ∀ request after, quiet request → after.db = world.db → allowed request after) :
    Ensures allowed (fun _ after => after.db = world.db) program world := by
  have ensures : program.Ensures PortalCall.execute
      (fun request after => quiet request ∧ after.db = world.db) (fun _ after => after.db = world.db)
      world := along.ensures
    (fun request circumstance after isQuiet same =>
      (PortalCall.db_execute_of_reads (reads request isQuiet) circumstance after).trans same) rfl
  exact ensures.imp (fun request after holds => isAllowed request after holds.1 holds.2)
    fun _ _ => id

/-! ### Runs in which nothing fails -/

/-- The statement is answered by the database. -/
theorem query_answered {statement : Query}
    {next : Except DbError statement.Value → PortalProgram Result}
    (ensures : Ensures allowed post (call (.query statement) next) world) :
    Ensures allowed post
      (next (statement.execute ⟨world.clock, .copy []⟩ world.db).1)
      { world with db := (statement.execute ⟨world.clock, .copy []⟩ world.db).2 } := by
  have answered := ensures.2 {}
  simpa [PortalCall.execute] using answered

theorem reading_answered {statement : Query}
    {next : Except DbError statement.Value → PortalProgram Result}
    (reads : statement.reads = true)
    (ensures : Ensures allowed post (call (.query statement) next) world) :
    Ensures allowed post (next (statement.execute ⟨world.clock, .copy []⟩ world.db).1) world := by
  have answered := query_answered ensures
  rwa [Query.execute_of_reads reads] at answered

theorem repo_answered {project : String} {request : RepoCall}
    {next : request.Response → PortalProgram Result}
    (ensures : Ensures allowed post (call (.repo project request) next) world) :
    Ensures allowed post (next (PortalCall.repoAnswer {} request)) world := by
  have answered := ensures.2 {}
  simpa [PortalCall.execute] using answered

end Portal

end Litefunctions
