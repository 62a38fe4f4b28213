import Litefunctions.AddressedProjects
import Litefunctions.EnforcedMethods
import Litefunctions.RememberedRows

/-!
# The rows of interleaved requests belong together

Requests to the portal run interleaved, so what a handler was told of a row may
be over when it stores another row.  The database then refuses the statement,
or the rows are still the ones of the answer: no statement changes a project or
a function that is stored, and a new one gets an id that none had before.
-/

namespace Litefunctions

open Portal Program

/-! ### Rows of several tables -/

/-- Rows with the same id are the same. -/
def OneRowPerId {Row : Type} (ident : Row → Uuid) (rows : List Row) : Prop :=
  ∀ first ∈ rows, ∀ second ∈ rows, ident first = ident second → first = second

section OneRow

variable {Row : Type} {ident : Row → Uuid} {ever rows : List Row}

theorem Portal.Database.projects_oneRowPerId (db : Database) : OneRowPerId (·.id) db.projects.rows := by
  intro first isFirst second isSecond sameId
  refine Table.eq_of_conflicts (fun row other => ?_) isFirst isSecond ?_
  · simp only [Project.conflicts, eq_comm]
  · simp [Project.conflicts, sameId]

theorem Portal.Database.functions_oneRowPerId (db : Database) : OneRowPerId (·.id) db.functions.rows := by
  intro first isFirst second isSecond sameId
  refine Table.eq_of_conflicts (fun row other => ?_) isFirst isSecond ?_
  · simp only [FunctionRow.conflicts, eq_comm]
  · simp [FunctionRow.conflicts, sameId]

theorem OneRowPerId.append (before : OneRowPerId ident ever) (now : OneRowPerId ident rows)
    (origin : ∀ row ∈ rows, row ∈ ever ∨ ∀ old ∈ ever, ident old ≠ ident row) :
    OneRowPerId ident (ever ++ rows) := by
  have across : ∀ old ∈ ever, ∀ row ∈ rows, ident old = ident row → old = row := by
    intro old isOld row isRow sameId
    rcases origin row isRow with known | fresh
    · exact before old isOld row known sameId
    · exact absurd sameId (fresh old isOld)
  intro first isFirst second isSecond sameId
  rcases List.mem_append.mp isFirst with old | new <;>
    rcases List.mem_append.mp isSecond with otherOld | otherNew
  · exact before first old second otherOld sameId
  · exact across first old second otherNew sameId
  · exact (across second otherOld first new sameId.symm).symm
  · exact now first new second otherNew sameId

end OneRow

variable {Pid : Type}

/-- The databases of the run so far. -/
def databases (first : System Pid) (early : List (SystemEvent Pid)) : List Database :=
  first.db :: early.map (·.after.db)

/-- The rows that a table has had in the run so far. -/
def everIn {Row : Type} (rows : Database → List Row) (first : System Pid)
    (early : List (SystemEvent Pid)) : List Row :=
  (databases first early).flatMap rows

section Databases

variable {Row : Type} {rows : Database → List Row} {first : System Pid}
variable {early : List (SystemEvent Pid)} {event : SystemEvent Pid}

@[simp]
theorem databases_snoc :
    databases first (early ++ [event]) = databases first early ++ [event.after.db] := by
  simp [databases]

@[simp]
theorem everIn_snoc : everIn rows first (early ++ [event]) =
    everIn rows first early ++ rows event.after.db := by
  simp [everIn]

theorem mem_everIn {db : Database} (seen : db ∈ databases first early) {row : Row}
    (member : row ∈ rows db) : row ∈ everIn rows first early :=
  List.mem_flatMap.mpr ⟨db, seen, member⟩

theorem mem_databases (member : event ∈ early) : event.after.db ∈ databases first early :=
  List.mem_cons_of_mem _ (List.mem_map_of_mem member)

end Databases

/-! ### New rows -/

/-- The statement adds a project or a function. -/
def Portal.Query.creates : Query → Bool
  | .project (.createProject _ _) => true
  | .function (.createFunction _ _ _ _ _ _) => true
  | _ => false

def SystemCall.creates : SystemCall Pid → Bool
  | .portal _ (.query statement) => statement.creates
  | _ => false

/-- The rows that the event adds to a table have ids that none of it had. -/
def AddsFresh {Row : Type} (rows : Database → List Row) (ident : Row → Uuid) (first : System Pid)
    (early : List (SystemEvent Pid)) (event : SystemEvent Pid) : Prop :=
  ∀ row ∈ rows event.after.db, row ∉ rows event.before.db →
    ∀ old ∈ everIn rows first early, ident old ≠ ident row

instance {Row : Type} [DecidableEq Row] (rows : Database → List Row) (ident : Row → Uuid)
    (first : System Pid) (early : List (SystemEvent Pid)) (event : SystemEvent Pid) :
    Decidable (AddsFresh rows ident first early event) :=
  inferInstanceAs (Decidable (∀ _ ∈ _, _ → ∀ _ ∈ _, _))

/-- A project or a function that a statement creates gets an id that none had
before. -/
def MakesFreshIds (first : System Pid) (early : List (SystemEvent Pid)) (event : SystemEvent Pid) :
    Prop :=
  event.request.creates = true →
    AddsFresh (·.projects.rows) (·.id) first early event ∧
      AddsFresh (·.functions.rows) (·.id) first early event

instance (first : System Pid) (early : List (SystemEvent Pid)) (event : SystemEvent Pid) :
    Decidable (MakesFreshIds first early event) :=
  inferInstanceAs (Decidable (_ → _ ∧ _))

namespace Portal

section Statements

variable {statement : Query} {history : PortalHistory} {db : Database}

/-- Only the creation of a project adds projects, and only the creation of a
function adds functions. -/
theorem Query.rows_of_execute (fits : statement.FitsAfter history) (keeps : statement.creates = false)
    (moment : Moment) :
    (∀ row ∈ (statement.execute moment db).2.projects.rows, row ∈ db.projects.rows) ∧
      ∀ row ∈ (statement.execute moment db).2.functions.rows, row ∈ db.functions.rows := by
  by_cases quiet : (PortalCall.query statement).keepsFunctions = true
  · obtain ⟨sameFunctions, sameProjects⟩ := Query.keepsFunctions_execute quiet moment db
    rw [sameFunctions, sameProjects]
    exact ⟨fun _ => id, fun _ => id⟩
  · cases statement with
    | project query =>
        cases query with
        | createProject => cases keeps
        | getProjectByID => exact absurd rfl quiet
    | function query =>
        cases query with
        | createFunction => cases keeps
        | updateFunctionPath ident path =>
            obtain rfl : ident = none := fits
            exact ⟨fun _ => id, fun _ => id⟩
        | updateFunctionIsAsync ident isAsync =>
            obtain rfl : ident = none := fits
            exact ⟨fun _ => id, fun _ => id⟩
        | deleteFunction ident =>
            cases ident with
            | none => exact ⟨fun _ => id, fun _ => id⟩
            | some ident => exact ⟨fun _ => id, fun row member => (Table.mem_remove.mp member).1⟩
        | _ => exact absurd rfl quiet
    | _ => exact absurd rfl quiet

/-- An endpoint is refused when its project or its function is missing. -/
theorem createEndpoint_refused {projectID functionID : Uuid} {name method scope : String}
    (missing : db.project? projectID = none ∨ db.function? functionID = none) (moment : Moment) :
    (Query.execute moment (.endpoint (.createEndpoint projectID name method scope functionID)) db).2 =
      db := by
  simp only [Query.execute, EndpointQuery.execute]
  rw [if_pos]
  rcases missing with noProject | noFunction
  · exact .inl (by rw [noProject]; rfl)
  · exact .inr (.inl (by rw [noFunction]; rfl))

end Statements

theorem oneRow_eq_ok {Row : Type} {found : Option Row} {row : Row} (isOk : oneRow found = .ok row) :
    found = some row := by
  cases found with
  | none => cases isOk
  | some stored => rw [Except.ok.inj isOk]

/-! ### Calls that fit or change nothing -/

/-- The call befits the rows, or the database refuses it. -/
def PortalCall.BefitsOrFails (request : PortalCall) (world : World) : Prop :=
  ∀ statement, request = .query statement →
    statement.Befits world.db ∨ ∀ moment, (statement.execute moment world.db).2 = world.db

theorem CoherentWorld.execute_of_fails {request : PortalCall} {world : World}
    (befits : request.BefitsOrFails world) (coherent : CoherentWorld world)
    (circumstance : PortalCall.Circumstance) :
    CoherentWorld (PortalCall.execute request circumstance world).2 := by
  by_cases isBefitting : request.Befits world
  · exact coherent.execute isBefitting circumstance
  · cases request with
    | query statement =>
        have same := (befits statement rfl).resolve_left isBefitting
        simp only [PortalCall.execute]
        cases circumstance.fault with
        | refused => exact ⟨coherent.db, coherent.saved⟩
        | none | lost =>
            refine ⟨?_, coherent.saved⟩
            rw [same]
            exact coherent.db
    | _ => exact absurd trivial isBefitting

/-- A statement that is answered was executed. -/
theorem PortalCall.executed_of_ok {statement : Query} {value : statement.Value}
    {circumstance : Circumstance} {world : World}
    (answered : ((query statement).execute circumstance world).1 = Except.ok value) :
    ∃ fresh, statement.execute ⟨((query statement).execute circumstance world).2.clock, fresh⟩
        world.db = (.ok value, ((query statement).execute circumstance world).2.db) := by
  refine ⟨circumstance.fresh, ?_⟩
  revert answered
  simp only [PortalCall.execute]
  cases circumstance.fault with
  | none => exact fun answered => Prod.ext answered rfl
  | refused | lost => rintro ⟨⟩

/-- Where the database after a call comes from. -/
inductive DatabaseAfter (request : PortalCall) (world : World) : Database → Prop
  | same : DatabaseAfter request world world.db
  | saved {db : Database} (isSaved : world.saved = some db) : DatabaseAfter request world db
  | executed (statement : Query) (moment : Moment) (isStatement : request = .query statement) :
      DatabaseAfter request world (statement.execute moment world.db).2

theorem rolledBack_databaseAfter (request : PortalCall) (world : World) :
    DatabaseAfter request world (world.saved.getD world.db) := by
  cases isSaved : world.saved with
  | none => exact .same
  | some db => exact .saved isSaved

theorem PortalCall.databaseAfter (request : PortalCall) (circumstance : Circumstance) (world : World) :
    DatabaseAfter request world (request.execute circumstance world).2.db := by
  cases request with
  | query statement =>
      simp only [PortalCall.execute]
      cases circumstance.fault with
      | refused => exact .same
      | none | lost => exact .executed statement _ rfl
  | begin =>
      simp only [PortalCall.execute]
      cases circumstance.fault <;> exact .same
  | commit =>
      simp only [PortalCall.execute]
      cases circumstance.fault with
      | refused => exact rolledBack_databaseAfter _ world
      | none | lost => exact .same
  | rollback => exact rolledBack_databaseAfter _ world
  | createFunctionCRD req =>
      simp only [PortalCall.execute]
      cases circumstance.fault <;> exact .same
  | _ => exact .same

/-- Only the current database is saved. -/
theorem PortalCall.saved_of_execute (request : PortalCall) (circumstance : Circumstance)
    (world : World) {db : Database} (isSaved : (request.execute circumstance world).2.saved = some db) :
    world.saved = some db ∨ db = world.db := by
  revert isSaved
  cases request with
  | begin =>
      simp only [PortalCall.execute]
      cases circumstance.fault with
      | none => exact fun isSaved => .inr (Option.some.inj isSaved).symm
      | refused | lost => exact .inl
  | query _ | commit | createFunctionCRD _ =>
      simp only [PortalCall.execute]
      cases circumstance.fault <;> first | exact .inl | rintro ⟨⟩
  | rollback => rintro ⟨⟩
  | _ => exact .inl

end Portal

/-! ### What a process was told -/

section Told

variable [DecidableEq Pid]

abbrev EmbedsPortal (pid : Pid) : PortalHistory → SystemHistory Pid → Prop :=
  Embeds (SystemCall.portal pid) fun _ response => response

/-- A call of a request is executed on the world of its process. -/
theorem SystemCall.execute_portal {pid : Pid} {call : PortalCall} {response : call.Response}
    {circumstance : SystemCall.Circumstance} {before after : System Pid}
    (executed : (SystemCall.portal pid call).execute circumstance before = some (response, after)) :
    call.execute circumstance.portal before.world =
      (response, (call.execute circumstance.portal before.world).2) ∧
      after = before.withWorld pid (call.execute circumstance.portal before.world).2 := by
  simp only [SystemCall.execute] at executed
  split at executed
  · cases executed
  · obtain ⟨rfl, rfl⟩ := Prod.mk.inj (Option.some.inj executed)
    exact ⟨rfl, rfl⟩

/-- Calls of the platform leave the rows alone. -/
theorem SystemCall.execute_platform {call : PlatformCall}
    {response : (SystemCall.platform call : SystemCall Pid).Response}
    {circumstance : SystemCall.Circumstance} {before after : System Pid}
    (executed : (SystemCall.platform call).execute circumstance before = some (response, after)) :
    after.db = before.db ∧ after.world.saved = before.world.saved := by
  simp only [SystemCall.execute] at executed
  split at executed
  · cases executed
  · rw [← (Prod.mk.inj (Option.some.inj executed)).2]
    exact ⟨rfl, rfl⟩

/-- What a process was told, the database had. -/
theorem Processes.Ran.told {first : Processes Pid (SystemCall Pid) SystemCall.Response SystemOutcome
      (System Pid)} {last : Processes Pid (SystemCall Pid) SystemCall.Response SystemOutcome (System Pid)}
    {events : List (SystemEvent Pid)} {pid : Pid} {part : PortalHistory}
    (ran : Processes.Ran SystemCall.execute first events last)
    (embeds : EmbedsPortal pid part (Event.own pid events)) {statement : Query}
    {value : statement.Value}
    (member : (⟨.query statement, Except.ok value⟩ : Answered PortalCall PortalCall.Response) ∈ part) :
    ∃ event ∈ events, event.pid = pid ∧ ∃ fresh,
      statement.execute ⟨event.after.clock, fresh⟩ event.before.db = (.ok value, event.after.db) := by
  obtain ⟨answer, answerEq, own⟩ := embeds _ member
  obtain rfl : answer = Except.ok value := answerEq
  obtain ⟨event, isEvent, isOwn, -, circumstance, executed⟩ :=
    Processes.Ran.executed_of_mem_own ran own
  obtain ⟨answered, isAfter⟩ := SystemCall.execute_portal executed
  obtain ⟨fresh, told⟩ := PortalCall.executed_of_ok (congrArg Prod.fst answered)
  refine ⟨event, isEvent, isOwn, fresh, ?_⟩
  rw [isAfter]
  exact told

section Run

variable {Response : Type} {settings : Portal.Settings} {authn : Passkeys.WebAuthn Response}
variable {system : System Pid} {tasks : Pid → SystemTask Response} {early : List (SystemEvent Pid)}
variable {pid : Pid} {part : PortalHistory}
variable {middle : Processes Pid (SystemCall Pid) SystemCall.Response SystemOutcome (System Pid)}

theorem SystemRuns.project_of_tells (ran : SystemRuns settings authn system tasks early middle)
    (embeds : EmbedsPortal pid part (Event.own pid early)) {projectID : Uuid} {name : String}
    (tells : TellsProject part projectID name) :
    ∃ project ∈ everIn (·.projects.rows) system early, project.id = projectID ∧ project.name = name := by
  cases tells with
  | read isName told =>
      obtain ⟨event, isEvent, -, fresh, executed⟩ := Processes.Ran.told ran embeds told
      simp only [Query.execute, ProjectQuery.execute] at executed
      obtain ⟨answer, isAfter⟩ := Prod.mk.inj executed
      obtain ⟨member, isID⟩ := mem_of_project? (oneRow_eq_ok answer)
      exact ⟨_, mem_everIn (mem_databases isEvent) (isAfter ▸ member), isID, isName⟩
  | created isID told =>
      obtain ⟨event, isEvent, -, fresh, executed⟩ := Processes.Ran.told ran embeds told
      simp only [Query.execute, ProjectQuery.execute] at executed
      split at executed
      · cases congrArg Prod.fst executed
      · split at executed
        · cases congrArg Prod.fst executed
        · next projects inserted =>
            obtain ⟨answer, isAfter⟩ := Prod.mk.inj executed
            obtain rfl := Except.ok.inj answer
            refine ⟨_, mem_everIn (mem_databases isEvent) ?_, isID, rfl⟩
            rw [← isAfter]
            exact (Table.mem_insert inserted).mpr (.inr rfl)

theorem SystemRuns.function_of_tells (ran : SystemRuns settings authn system tasks early middle)
    (embeds : EmbedsPortal pid part (Event.own pid early)) {projectID functionID : Uuid} {name : String}
    (tells : TellsFunction part projectID functionID name) :
    ∃ row ∈ everIn (·.functions.rows) system early, row.id = functionID ∧ row.projectID = projectID ∧
      (name = row.name ∨ name = FunctionHandlers.nameOf row.path) := by
  cases tells with
  | listed member isID isName told =>
      obtain ⟨event, isEvent, -, fresh, executed⟩ := Processes.Ran.told ran embeds told
      obtain ⟨answer, isAfter⟩ := Prod.mk.inj executed
      rw [← Except.ok.inj answer] at member
      obtain ⟨stored, inProject⟩ := FunctionHandlers.mem_ofProject.mp member
      exact ⟨_, mem_everIn (mem_databases isEvent) (isAfter ▸ stored), isID, inProject, .inr isName⟩
  | created isID told =>
      obtain ⟨event, isEvent, -, fresh, executed⟩ := Processes.Ran.told ran embeds told
      obtain ⟨stored, inProject, isName⟩ := createFunction_stored (congrArg Prod.fst executed)
      rw [executed] at stored
      exact ⟨_, mem_everIn (mem_databases isEvent) stored, isID, inProject, .inl isName.symm⟩

theorem SystemRuns.language_of_tells (ran : SystemRuns settings authn system tasks early middle)
    (embeds : EmbedsPortal pid part (Event.own pid early))
    (coherent : ∀ db ∈ databases system early, Coherent db) {language path : String}
    (tells : TellsLanguage part language path) :
    FunctionHandlers.extLang (FunctionHandlers.ext path) = some language := by
  rcases tells with isLanguage | ⟨ident, row, told, rfl, rfl⟩
  · exact isLanguage
  · obtain ⟨event, isEvent, -, fresh, executed⟩ := Processes.Ran.told ran embeds told
    simp only [Query.execute, FunctionQuery.execute] at executed
    obtain ⟨answer, isAfter⟩ := Prod.mk.inj executed
    obtain ⟨functionID, -, isFunction⟩ := Option.bind_eq_some_iff.mp (oneRow_eq_ok answer)
    have member := (function?_some isFunction).1
    rw [isAfter] at member
    exact ((coherent _ (mem_databases isEvent)).functions _ member).2.2

end Run

end Told

/-! ### One step -/

theorem System.saved_of_closed {system : System Pid} (closed : system.transaction = none) :
    system.world.saved = none := by
  rw [System.world, closed]
  rfl

/-- The databases of the run were coherent, and no id of a project or of a
function was used twice. -/
structure Recorded (first : System Pid) (early : List (SystemEvent Pid)) (system : System Pid) :
    Prop where
  current : system.db ∈ databases first early
  saved : ∀ db, system.world.saved = some db → db ∈ databases first early
  coherent : ∀ db ∈ databases first early, Coherent db
  projects : OneRowPerId (·.id) (everIn (·.projects.rows) first early)
  functions : OneRowPerId (·.id) (everIn (·.functions.rows) first early)

namespace Recorded

variable {first : System Pid} {early : List (SystemEvent Pid)}

theorem start {system : System Pid} (coherent : Coherent system.db)
    (closed : system.transaction = none) : Recorded system [] system where
  current := List.mem_cons_self
  saved db isSaved := by
    rw [System.saved_of_closed closed] at isSaved
    cases isSaved
  coherent db member := by
    rw [List.mem_singleton.mp member]
    exact coherent
  projects := by simpa [everIn, databases] using system.db.projects_oneRowPerId
  functions := by simpa [everIn, databases] using system.db.functions_oneRowPerId

theorem coherentWorld {system : System Pid} (recorded : Recorded first early system) :
    CoherentWorld system.world where
  db := recorded.coherent _ recorded.current
  saved db isSaved := recorded.coherent db (recorded.saved db isSaved)

/-- A step to a coherent database whose new rows have new ids. -/
theorem snoc {event : SystemEvent Pid} (recorded : Recorded first early event.before)
    (coherent : Coherent event.after.db)
    (saved : ∀ db, event.after.world.saved = some db →
      event.before.world.saved = some db ∨ db = event.before.db)
    (projects : ∀ row ∈ event.after.db.projects.rows, row ∈ everIn (·.projects.rows) first early ∨
      ∀ old ∈ everIn (·.projects.rows) first early, old.id ≠ row.id)
    (functions : ∀ row ∈ event.after.db.functions.rows, row ∈ everIn (·.functions.rows) first early ∨
      ∀ old ∈ everIn (·.functions.rows) first early, old.id ≠ row.id) :
    Recorded first (early ++ [event]) event.after where
  current := by simp
  saved db isSaved := by
    rw [databases_snoc]
    apply List.mem_append_left
    rcases saved db isSaved with before | rfl
    · exact recorded.saved db before
    · exact recorded.current
  coherent db member := by
    rw [databases_snoc] at member
    rcases List.mem_append.mp member with old | new
    · exact recorded.coherent db old
    · rw [List.mem_singleton.mp new]
      exact coherent
  projects := by
    rw [everIn_snoc]
    exact recorded.projects.append event.after.db.projects_oneRowPerId projects
  functions := by
    rw [everIn_snoc]
    exact recorded.functions.append event.after.db.functions_oneRowPerId functions

/-- An endpoint for what was told of its project and of its function. -/
theorem namesFunction {system : System Pid} (recorded : Recorded first early system)
    {projectID functionID : Uuid} {projectName functionName : String}
    (hasProject : ∃ project ∈ everIn (·.projects.rows) first early, project.id = projectID ∧
      project.name = projectName)
    (hasFunction : ∃ row ∈ everIn (·.functions.rows) first early, row.id = functionID ∧
      row.projectID = projectID ∧
        (functionName = row.name ∨ functionName = FunctionHandlers.nameOf row.path))
    {project : Project} (isProject : system.db.project? projectID = some project)
    {row : FunctionRow} (isFunction : system.db.function? functionID = some row) :
    system.db.NamesFunction projectID s!"/{projectName}/{functionName}" functionID := by
  obtain ⟨member, isID⟩ := mem_of_project? isProject
  obtain ⟨stored, isFunctionID⟩ := function?_some isFunction
  obtain ⟨known, isKnown, knownID, rfl⟩ := hasProject
  obtain ⟨told, isTold, toldID, inProject, named⟩ := hasFunction
  -- what was told is still stored, since ids are used only once
  obtain rfl := recorded.projects known isKnown project (mem_everIn recorded.current member)
    (knownID.trans isID.symm)
  obtain rfl := recorded.functions told isTold row (mem_everIn recorded.current stored)
    (toldID.trans isFunctionID.symm)
  refine ⟨known, member, isID, told, stored, isFunctionID, inProject, ?_⟩
  exact named.imp (fun same => by rw [same]) fun same => by rw [same]

/-- The rows after a statement are rows of the run, or their ids are new. -/
theorem rows_of_execute {event : SystemEvent Pid} {pid : Pid} {statement : Query}
    {history : PortalHistory} (recorded : Recorded first early event.before) (fits : statement.FitsAfter history)
    (isStatement : event.request = .portal pid (.query statement)) (moment : Moment)
    (executed : event.after.db = (statement.execute moment event.before.db).2)
    (fresh : MakesFreshIds first early event) :
    (∀ row ∈ event.after.db.projects.rows, row ∈ everIn (·.projects.rows) first early ∨
        ∀ old ∈ everIn (·.projects.rows) first early, old.id ≠ row.id) ∧
      ∀ row ∈ event.after.db.functions.rows, row ∈ everIn (·.functions.rows) first early ∨
        ∀ old ∈ everIn (·.functions.rows) first early, old.id ≠ row.id := by
  cases creates : statement.creates with
  | false =>
      obtain ⟨projects, functions⟩ := Query.rows_of_execute fits creates moment
      rw [← executed] at projects functions
      exact ⟨fun row member => .inl (mem_everIn recorded.current (projects row member)),
        fun row member => .inl (mem_everIn recorded.current (functions row member))⟩
  | true =>
      have makes : event.request.creates = true := by rw [isStatement]; exact creates
      obtain ⟨projects, functions⟩ := fresh makes
      constructor
      · intro row member
        by_cases old : row ∈ event.before.db.projects.rows
        · exact .inl (mem_everIn recorded.current old)
        · exact .inr (projects row member old)
      · intro row member
        by_cases old : row ∈ event.before.db.functions.rows
        · exact .inl (mem_everIn recorded.current old)
        · exact .inr (functions row member old)

end Recorded

section Step

variable [DecidableEq Pid] {Response : Type} {settings : Portal.Settings}
variable {authn : Passkeys.WebAuthn Response} {system : System Pid} {tasks : Pid → SystemTask Response}
variable {early : List (SystemEvent Pid)} {event : SystemEvent Pid}
variable {middle : Processes Pid (SystemCall Pid) SystemCall.Response SystemOutcome (System Pid)}

/-- What fits what a request was told befits the rows, or the database refuses
it. -/
theorem SystemRuns.befitsOrFails (ran : SystemRuns settings authn system tasks early middle)
    {now : System Pid} (recorded : Recorded system early now) {pid : Pid} {part : PortalHistory}
    (embeds : EmbedsPortal pid part (Event.own pid early)) {request : PortalCall}
    (fits : request.FitsAfter part) : request.BefitsOrFails now.world := by
  rintro statement rfl
  have language {language path : String} (tells : TellsLanguage part language path) :=
    SystemRuns.language_of_tells ran embeds recorded.coherent tells
  rcases statement with query | query | query | query | query <;> cases query
  case function.createFunction => exact .inl (language fits)
  case endpoint.createEndpoint projectID name method scope functionID =>
    obtain ⟨projectName, functionName, project, function, rfl⟩ := fits
    cases isProject : now.db.project? projectID with
    | none => exact .inr (createEndpoint_refused (.inl isProject))
    | some found =>
        cases isFunction : now.db.function? functionID with
        | none => exact .inr (createEndpoint_refused (.inr isFunction))
        | some row =>
            exact .inl (recorded.namesFunction (SystemRuns.project_of_tells ran embeds project)
              (SystemRuns.function_of_tells ran embeds function) isProject isFunction)
  all_goals first | exact .inl fits | exact .inl trivial

/-- A call of a request that fits what the request was told. -/
theorem SystemRuns.recorded_portal (ran : SystemRuns settings authn system tasks early middle)
    (recorded : Recorded system early event.before) {pid : Pid} {call : PortalCall}
    (isCall : event.request = .portal pid call) {part : PortalHistory}
    (embeds : EmbedsPortal pid part (Event.own pid early)) (fits : call.FitsAfter part)
    {circumstance : PortalCall.Circumstance}
    (isAfter : event.after =
      event.before.withWorld pid (call.execute circumstance event.before.world).2)
    (fresh : MakesFreshIds system early event) : Recorded system (early ++ [event]) event.after := by
  have coherent := recorded.coherentWorld.execute_of_fails
    (SystemRuns.befitsOrFails ran recorded embeds fits) circumstance
  have sameDb : event.after.db = (call.execute circumstance event.before.world).2.db := by
    rw [isAfter]
    rfl
  have rows : (∀ row ∈ event.after.db.projects.rows, row ∈ everIn (·.projects.rows) system early ∨
        ∀ old ∈ everIn (·.projects.rows) system early, old.id ≠ row.id) ∧
      ∀ row ∈ event.after.db.functions.rows, row ∈ everIn (·.functions.rows) system early ∨
        ∀ old ∈ everIn (·.functions.rows) system early, old.id ≠ row.id := by
    have origin := call.databaseAfter circumstance event.before.world
    generalize afterDb : (call.execute circumstance event.before.world).2.db = db at origin
    rw [afterDb] at sameDb
    cases origin with
    | same =>
        rw [sameDb]
        exact ⟨fun row member => .inl (mem_everIn recorded.current member),
          fun row member => .inl (mem_everIn recorded.current member)⟩
    | saved isSaved =>
        have known := recorded.saved db isSaved
        rw [sameDb]
        exact ⟨fun row member => .inl (mem_everIn known member),
          fun row member => .inl (mem_everIn known member)⟩
    | executed statement moment isStatement =>
        subst isStatement
        exact recorded.rows_of_execute fits isCall moment sameDb fresh
  refine recorded.snoc (sameDb ▸ coherent.db) (fun db isSaved => ?_) rows.1 rows.2
  have savedAfter : (call.execute circumstance event.before.world).2.saved = some db := by
    rw [isAfter] at isSaved
    simpa [System.world, System.withWorld] using isSaved
  exact call.saved_of_execute circumstance event.before.world savedAfter

theorem Recorded.platform {call : PlatformCall} {circumstance : SystemCall.Circumstance}
    {response : (SystemCall.platform call : SystemCall Pid).Response}
    (recorded : Recorded system early event.before)
    (executed : (SystemCall.platform call).execute circumstance event.before =
      some (response, event.after)) : Recorded system (early ++ [event]) event.after := by
  obtain ⟨sameDb, sameSaved⟩ := SystemCall.execute_platform executed
  apply recorded.snoc
  · rw [sameDb]
    exact recorded.coherent _ recorded.current
  · intro db isSaved
    exact .inl (sameSaved ▸ isSaved)
  · intro row member
    exact .inl (mem_everIn recorded.current (sameDb ▸ member))
  · intro row member
    exact .inl (mem_everIn recorded.current (sameDb ▸ member))

end Step

/-! ### Runs -/

/-- A call of a request fits what its process was told. -/
def FitsOwn (pid : Pid) (history : SystemHistory Pid) : SystemCall Pid → Prop
  | .platform _ => True
  | .portal caller request =>
      caller = pid ∧ ∃ part, EmbedsPortal pid part history ∧ request.FitsAfter part

theorem SystemTask.program_fits {Response : Type} (settings : Portal.Settings)
    (authn : Passkeys.WebAuthn Response) (task : SystemTask Response) (pid : Pid) :
    (task.program settings authn pid).Along (FitsOwn pid) (fun _ _ => True) [] := by
  cases task with
  | platform task => exact (along_lift (fun _ _ => .intro) _ fun _ _ _ => trivial).map _
  | portal request =>
      have embeds : EmbedsPortal pid [] ([] : SystemHistory Pid) := by
        intro answered member
        cases member
      refine along_bind.mpr (((serve_remembers settings authn request).lift embeds).imp ?_
        fun _ _ _ => trivial)
      rintro before call ⟨part, inner, embedded, rfl, fits⟩
      exact ⟨rfl, part, embedded, fits⟩

section Runs

variable [DecidableEq Pid] {Response : Type} {settings : Portal.Settings}
variable {authn : Passkeys.WebAuthn Response} {system : System Pid} {tasks : Pid → SystemTask Response}
variable {events : List (SystemEvent Pid)}
variable {last : Processes Pid (SystemCall Pid) SystemCall.Response SystemOutcome (System Pid)}

theorem SystemRuns.recorded (ran : SystemRuns settings authn system tasks events last)
    (coherent : Coherent system.db) (closed : system.transaction = none)
    (fresh : Event.AtEvery (MakesFreshIds system) events) : Recorded system events last.shared := by
  refine Processes.Ran.induction
    (motive := fun early processes => Recorded system early processes.shared) ran
    (.start coherent closed) ?_
  intro early event late middle next isRun ranEarly recorded isProgram isBefore executed
  have fits := Processes.Ran.assertion (isRun ▸ ran)
    ((tasks event.pid).program_fits settings authn event.pid)
  have freshNow := fresh early event late isRun
  rw [← isBefore] at recorded
  obtain ⟨circumstance, executed⟩ := executed
  obtain ⟨pid, request, response, before, after⟩ := event
  cases request with
  | platform request => exact recorded.platform executed
  | portal caller request =>
      obtain ⟨rfl, part, embeds, fits⟩ := fits
      exact SystemRuns.recorded_portal ranEarly recorded rfl embeds fits
        (SystemCall.execute_portal executed).2 freshNow

end Runs

theorem newProjectSystem_coherent : Coherent newProjectSystem.db := by
  refine ⟨?_, ?_, nofun, nofun, nofun, nofun, ?_, nofun⟩
  · intro row member
    obtain rfl : row = ⟨[97], "a", "a"⟩ := List.mem_singleton.mp member
    decide +kernel
  · intro row member
    obtain rfl : row = ⟨.copy [1], "shop", [97], 0⟩ := List.mem_singleton.mp member
    exact ⟨⟨[97], "a", "a"⟩, List.mem_cons_self, rfl⟩
  · intro row member
    obtain rfl : row = ⟨"s", [97], 10⟩ := List.mem_singleton.mp member
    exact ⟨⟨[97], "a", "a"⟩, List.mem_cons_self, rfl⟩

/-- A project is synchronised while one of its functions is deleted. -/
def syncMeetsDeletion : Nat → SystemTask Unit
  | 0 => .portal syncLua.request
  | _ => .portal deleteTotal.request

/-- The function is deleted after it was created and before its endpoint. -/
def deletedInBetween : List (Nat × SystemCall.Circumstance) :=
  (List.replicate 9 0 ++ List.replicate 9 1 ++ List.replicate 4 0).map fun pid =>
    (pid, { portal := { files := ["/functions/lua/total.lua"] } })

def deletionEvents : List (SystemEvent Nat) :=
  ((startSystem exampleSettings refusingAuthn newProjectSystem syncMeetsDeletion).run
    SystemCall.execute deletedInBetween).1

end Litefunctions
