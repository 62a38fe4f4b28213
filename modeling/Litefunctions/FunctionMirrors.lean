import Litefunctions.FunctionCreations
import Litefunctions.RejectedRequests
import Litefunctions.RequestedUpdates

/-!
# Function objects as mirrors of the functions table

Creating a function in the portal, by a request or by a synchronisation, stores
a row and then calls the operator, which creates the Function object.  An
update never reaches the row, because its id is null.  As long as no function
is deleted, rows and objects of a project correspond.
-/

namespace Litefunctions

namespace Portal

open Program

/-! ### Runs on one project -/

/-- A request with the circumstances under which it is served. -/
structure Served (Response : Type) where
  request : Request Response
  circumstances : Nat → PortalCall.Circumstance

namespace Served

variable {Response : Type} (settings : Settings) (authn : Passkeys.WebAuthn Response)

def run (served : Served Response) (world : World) : List Reply × World :=
  (serve settings authn served.request).runAlone PortalCall.execute served.circumstances world

def steps (served : Served Response) (world : World) :
    List (PortalCall × PortalCall.Circumstance × World) :=
  (serve settings authn served.request).stepsAlone PortalCall.execute served.circumstances world

end Served

/-- The worlds that a run reaches in which every request is as `allowed` says. -/
inductive Reached {Response : Type} (settings : Settings) (authn : Passkeys.WebAuthn Response)
    (allowed : Served Response → World → Prop) (first : World) : World → Prop
  | start : Reached settings authn allowed first first
  | next {world : World} {served : Served Response} (before : Reached settings authn allowed first world)
      (isAllowed : allowed served world) :
      Reached settings authn allowed first (served.run settings authn world).2

/-- The four operations on the functions of a project. -/
def ProjectRoute.changesFunctions : ProjectRoute → Bool
  | createFunction _ | updateFunction _ _ | deleteFunction _ | syncProject => true
  | _ => false

/-- A reply that reports success. -/
def Reply.isSuccess : Reply → Bool
  | .json code _ => code < 400
  | .status code => code < 400
  | .redirect _ => false
  | .panicked => false
  | _ => true

/-- The remote call reaches the operator, which reaches the API server. -/
def ReachesOperator : PortalCall → PortalCall.Circumstance → World → Prop
  | .createFunctionCRD _, circumstance, _ =>
      circumstance.fault = .none ∧ ∀ index, (circumstance.operator index).unavailable = false
  | _, _, _ => True

/-- One of the four operations on the project, answered with success, with
every remote call reaching the operator. -/
structure Succeeds {Response : Type} (settings : Settings) (authn : Passkeys.WebAuthn Response)
    (project : Uuid) (served : Served Response) (world : World) : Prop where
  operation : ∃ route, served.request.route = .project route ∧ route.changesFunctions = true
  onProject : served.request.cookies.project.bind HexText.decode = some project.val
  success : ∀ reply ∈ (served.run settings authn world).1, reply.isSuccess = true
  reaches : ∀ step ∈ served.steps settings authn world, ReachesOperator step.1 step.2.1 step.2.2

/-- The statement that stores a function. -/
def Query.storesFunction : Query → Bool
  | function (.createFunction _ _ _ _ _ _) => true
  | _ => false

/-- No function is stored while the answer of the database is lost, and remote
calls name functions with a name, which no object of another project has. -/
def KeepsApart (projectName : String) :
    PortalCall → PortalCall.Circumstance → World → Prop
  | .createFunctionCRD req, _, world => req.name ≠ "" ∧
      ∀ object, world.cluster.functions.find? ⟨"default", req.name⟩ = some object →
        object.content.project = projectName
  | .query statement, circumstance, _ =>
      statement.storesFunction = true → circumstance.fault ≠ .lost
  | _, _, _ => True

/-- The request deletes nothing, and `KeepsApart` holds of its calls. -/
structure Harmonious {Response : Type} (settings : Settings) (authn : Passkeys.WebAuthn Response)
    (projectName : String) (served : Served Response) (world : World) : Prop where
  noDeletion : ∀ fnID, served.request.route ≠ .project (.deleteFunction fnID)
  keepsApart : ∀ step ∈ served.steps settings authn world,
    KeepsApart projectName step.1 step.2.1 step.2.2

/-! ### Correspondence -/

/-- The object has what the row says. -/
def Represents (projectName : String) (row : FunctionRow) (object : Function) : Prop :=
  object.content.name = row.name ∧ object.content.project = projectName ∧
    object.content.language = row.language ∧ object.content.isAsync = row.isAsync

/-- Rows and Function objects of a project correspond one to one. -/
structure Correspond (project : Uuid) (projectName : String) (world : World) : Prop where
  ofRow : ∀ row ∈ world.db.functions.rows, row.projectID = project →
    ∃! object, object ∈ world.cluster.functions.objects ∧ Represents projectName row object
  ofObject : ∀ object ∈ world.cluster.functions.objects, object.content.project = projectName →
    ∃! row, row ∈ world.db.functions.rows ∧ row.projectID = project ∧
      Represents projectName row object

/-- A project without functions. -/
structure IsNew (project : Uuid) (projectName : String) (world : World) : Prop where
  stored : ∃ row, world.db.project? project = some row ∧ row.name = projectName
  named : projectName ≠ ""
  noRow : ∀ row ∈ world.db.functions.rows, row.projectID ≠ project
  noObject : ∀ object ∈ world.cluster.functions.objects, object.content.project ≠ projectName

/-- The invariant of runs, in which a new row may still wait for its object. -/
structure Mirrored (project : Uuid) (projectName : String) (pending : Option FunctionRow)
    (world : World) : Prop where
  stored : ∃ row, world.db.project? project = some row ∧ row.name = projectName
  named : projectName ≠ ""
  ofRow : ∀ row ∈ world.db.functions.rows, row.projectID = project → row ∈ pending ∨
    ∃ object, world.cluster.functions.find? ⟨"default", row.name⟩ = some object ∧
      Represents projectName row object
  ofObject : ∀ object ∈ world.cluster.functions.objects, object.content.project = projectName →
    object.key = ⟨"default", object.content.name⟩ ∧
    ∃ row ∈ world.db.functions.rows, row.projectID = project ∧ row ∉ pending ∧
      Represents projectName row object
  waiting : ∀ row ∈ pending, row ∈ world.db.functions.rows ∧ row.projectID = project

section Mirrored

variable {project : Uuid} {projectName : String} {pending : Option FunctionRow} {world after : World}

theorem FunctionRow.eq_of_name {db : Database} {row other : FunctionRow}
    (member : row ∈ db.functions.rows) (otherMember : other ∈ db.functions.rows)
    (sameProject : row.projectID = other.projectID) (sameName : row.name = other.name) :
    row = other := by
  refine Table.eq_of_conflicts (fun first second => ?_) member otherMember ?_
  · simp only [FunctionRow.conflicts, eq_comm]
  · simp [FunctionRow.conflicts, sameProject, sameName]

theorem Mirrored.of_isNew (isNew : IsNew project projectName world) :
    Mirrored project projectName none world where
  stored := isNew.stored
  named := isNew.named
  ofRow row member isProject := absurd isProject (isNew.noRow row member)
  ofObject object member isProject := absurd isProject (isNew.noObject object member)
  waiting row member := by cases member

theorem Mirrored.correspond (mirrored : Mirrored project projectName none world) :
    Correspond project projectName world where
  ofRow row member isProject := by
    rcases mirrored.ofRow row member isProject with isPending | ⟨object, found, represents⟩
    · cases isPending
    · refine ⟨object, ⟨Store.mem_of_find?_eq_some found, represents⟩, ?_⟩
      rintro other ⟨otherMember, otherRepresents⟩
      have otherKey := (mirrored.ofObject other otherMember otherRepresents.2.1).1
      have otherFound := Store.find?_key_of_mem otherMember
      rw [otherKey, otherRepresents.1] at otherFound
      exact Option.some.inj (otherFound.symm.trans found)
  ofObject object member isProject := by
    obtain ⟨-, row, rowMember, rowProject, -, represents⟩ := mirrored.ofObject object member isProject
    refine ⟨row, ⟨rowMember, rowProject, represents⟩, ?_⟩
    rintro other ⟨otherMember, otherProject, otherRepresents⟩
    exact FunctionRow.eq_of_name otherMember rowMember (otherProject.trans rowProject.symm)
      (otherRepresents.1.symm.trans represents.1)

/-- Functions, projects and Function objects are as before. -/
structure SameFunctions (first after : World) : Prop where
  functions : after.db.functions = first.db.functions
  projects : after.db.projects = first.db.projects
  objects : after.cluster.functions = first.cluster.functions

theorem Mirrored.congr (mirrored : Mirrored project projectName pending world)
    (same : SameFunctions world after) : Mirrored project projectName pending after := by
  have projectEq : after.db.project? project = world.db.project? project := by
    rw [Database.project?, same.projects]
    rfl
  constructor
  · rw [projectEq]
    exact mirrored.stored
  · exact mirrored.named
  · rw [same.functions, same.objects]
    exact mirrored.ofRow
  · rw [same.functions, same.objects]
    exact mirrored.ofObject
  · rw [same.functions]
    exact mirrored.waiting

/-- A new row of the project waits for its object. -/
theorem Mirrored.insert {row : FunctionRow} {functions : Table FunctionRow FunctionRow.conflicts}
    (mirrored : Mirrored project projectName none world)
    (inserted : world.db.functions.insert row = some functions) (isProject : row.projectID = project)
    (functionsEq : after.db.functions = functions) (projectsEq : after.db.projects = world.db.projects)
    (objectsEq : after.cluster.functions = world.cluster.functions) :
    Mirrored project projectName (some row) after := by
  have projectEq : after.db.project? project = world.db.project? project := by
    rw [Database.project?, projectsEq]
    rfl
  have isNew : row ∉ world.db.functions.rows := by
    intro member
    have apart := functions.distinct
    rw [Table.rows_insert inserted, List.pairwise_append] at apart
    have clash := apart.2.2 row member row List.mem_cons_self
    simp [FunctionRow.conflicts] at clash
  constructor
  · rw [projectEq]
    exact mirrored.stored
  · exact mirrored.named
  · intro other member otherProject
    rw [functionsEq, Table.mem_insert inserted] at member
    rw [objectsEq]
    rcases member with old | rfl
    · exact .inr ((mirrored.ofRow other old otherProject).resolve_left (by simp))
    · exact .inl rfl
  · intro object member objectProject
    rw [objectsEq] at member
    obtain ⟨keyEq, other, otherMember, otherProject, -, represents⟩ :=
      mirrored.ofObject object member objectProject
    refine ⟨keyEq, other, ?_, otherProject, ?_, represents⟩
    · rw [functionsEq, Table.mem_insert inserted]
      exact .inl otherMember
    · rintro ⟨⟩
      exact isNew otherMember
  · rintro other ⟨⟩
    refine ⟨?_, isProject⟩
    rw [functionsEq, Table.mem_insert inserted]
    exact .inr rfl

/-- The remote call that follows a new row. -/
def creationOf (settings : Settings) (projectName : String) (row : FunctionRow) :
    Operator.CreateFunctionRequest where
  namespace_ := "default"
  name := row.name
  project := projectName
  language := row.language
  gitCreds := settings.vcsToken
  isAsync := row.isAsync

/-- No object has the name of a row that waits. -/
theorem Mirrored.absent {row : FunctionRow}
    (mirrored : Mirrored project projectName (some row) world)
    (apart : ∀ object, world.cluster.functions.find? ⟨"default", row.name⟩ = some object →
      object.content.project = projectName) :
    world.cluster.functions.find? ⟨"default", row.name⟩ = none := by
  by_contra isSome
  obtain ⟨object, found⟩ := Option.ne_none_iff_exists'.mp isSome
  have ⟨rowMember, rowProject⟩ := mirrored.waiting row rfl
  obtain ⟨keyEq, other, otherMember, otherProject, notWaiting, represents⟩ :=
    mirrored.ofObject object (Store.mem_of_find?_eq_some found) (apart object found)
  have sameName : row.name = object.content.name := by
    have sameKey := (Store.key_of_find?_eq_some found).symm.trans keyEq
    exact congrArg NamespacedName.name sameKey
  have same : other = row := FunctionRow.eq_of_name otherMember rowMember
    (otherProject.trans rowProject.symm) (represents.1.symm.trans sameName.symm)
  exact notWaiting (congrArg some same.symm)

/-- The object of a waiting row is created. -/
theorem Mirrored.register {settings : Settings} {row : FunctionRow} {written : Function}
    (mirrored : Mirrored project projectName (some row) world) (dbEq : after.db = world.db)
    (contentEq : written.content = Operator.newSpec (creationOf settings projectName row))
    (stores : ∀ other, after.cluster.functions.find? other =
      if other = ⟨"default", row.name⟩ then some written else world.cluster.functions.find? other) :
    Mirrored project projectName none after := by
  have ⟨rowMember, rowProject⟩ := mirrored.waiting row rfl
  have represents : Represents projectName row written := by
    unfold Represents
    rw [contentEq]
    exact ⟨rfl, rfl, rfl, rfl⟩
  have writtenFound : after.cluster.functions.find? ⟨"default", row.name⟩ = some written := by
    rw [stores, if_pos rfl]
  constructor
  · rw [dbEq]
    exact mirrored.stored
  · exact mirrored.named
  · intro other member otherProject
    rw [dbEq] at member
    right
    rcases mirrored.ofRow other member otherProject with isPending | ⟨object, found, otherRepresents⟩
    · obtain rfl := Option.some.inj isPending
      exact ⟨written, writtenFound, represents⟩
    · by_cases sameName : other.name = row.name
      · rw [FunctionRow.eq_of_name member rowMember (otherProject.trans rowProject.symm) sameName]
        exact ⟨written, writtenFound, represents⟩
      · refine ⟨object, ?_, otherRepresents⟩
        rw [stores, if_neg (fun same => sameName (congrArg NamespacedName.name same)), found]
  · intro object member objectProject
    have found := Store.find?_key_of_mem member
    rw [stores] at found
    split at found
    · next keyEq =>
        obtain rfl := Option.some.inj found
        refine ⟨?_, row, dbEq ▸ rowMember, rowProject, by simp, represents⟩
        rw [keyEq, represents.1]
    · obtain ⟨keyEq, other, otherMember, otherProject, -, otherRepresents⟩ :=
        mirrored.ofObject object (Store.mem_of_find?_eq_some found) objectProject
      exact ⟨keyEq, other, dbEq ▸ otherMember, otherProject, by simp, otherRepresents⟩
  · intro other isWaiting
    cases isWaiting

end Mirrored

/-! ### Calls -/

/-- Whether a call keeps functions, projects and Function objects. -/
def PortalCall.keepsFunctions : PortalCall → Bool
  | query (.function statement) => statement.reads
  | query (.project statement) => statement.reads
  | query _ => true
  | begin | commit | rollback | createFunctionCRD _ => false
  | _ => true

theorem Query.keepsFunctions_execute {statement : Query}
    (keeps : (PortalCall.query statement).keepsFunctions = true) (moment : Moment) (db : Database) :
    (statement.execute moment db).2.functions = db.functions ∧
      (statement.execute moment db).2.projects = db.projects := by
  cases statement with
  | function statement =>
      have same := @Query.execute_of_reads (.function statement) keeps moment db
      exact ⟨congrArg Database.functions same, congrArg Database.projects same⟩
  | project statement =>
      have same := @Query.execute_of_reads (.project statement) keeps moment db
      exact ⟨congrArg Database.functions same, congrArg Database.projects same⟩
  | access statement =>
      cases statement <;> simp only [Query.execute, AccessQuery.execute, AccessQuery.insertAccess,
        AccessQuery.setRole] <;> repeat' split
      all_goals first | exact ⟨rfl, rfl⟩ | exact ⟨trivial, trivial⟩
  | endpoint statement =>
      cases statement <;> simp only [Query.execute, EndpointQuery.execute] <;> repeat' split
      all_goals first | exact ⟨rfl, rfl⟩ | exact ⟨trivial, trivial⟩
  | auth statement =>
      cases statement <;> simp only [Query.execute, AuthQuery.execute] <;> repeat' split
      all_goals first | exact ⟨rfl, rfl⟩ | exact ⟨trivial, trivial⟩

theorem sameFunctions_execute {request : PortalCall} (keeps : request.keepsFunctions = true)
    (circumstance : PortalCall.Circumstance) (world : World) :
    SameFunctions world (PortalCall.execute request circumstance world).2 := by
  cases request with
  | query statement =>
      have kept := Query.keepsFunctions_execute keeps
      simp only [PortalCall.execute]
      cases circumstance.fault with
      | none => exact ⟨(kept _ _).1, (kept _ _).2, rfl⟩
      | refused => exact ⟨rfl, rfl, rfl⟩
      | lost => exact ⟨(kept _ _).1, (kept _ _).2, rfl⟩
  | begin => cases keeps
  | commit => cases keeps
  | rollback => cases keeps
  | createFunctionCRD req => cases keeps
  | _ => exact ⟨rfl, rfl, rfl⟩

/-! ### Programs -/

section Programs

variable {project : Uuid} {projectName : String} {Result : Type} {world : World}

/-- What is assumed of the calls of a request. -/
def Assumed (projectName : String) (request : PortalCall) (circumstance : PortalCall.Circumstance)
    (world : World) : Prop :=
  ReachesOperator request circumstance world ∧ KeepsApart projectName request circumstance world

abbrev EnsuresMirrored (project : Uuid) (projectName : String) (program : PortalProgram Result)
    (world : World) : Prop :=
  program.EnsuresUnder PortalCall.execute (Assumed projectName)
    (fun _ after => Mirrored project projectName none after) world

/-- Calls that keep functions keep the mirrors. -/
theorem mirrored_of_keeping {pending : Option FunctionRow} {program : PortalProgram Result}
    (along : program.Along (fun _ request => request.keepsFunctions = true) (fun _ _ => True) [])
    (mirrored : Mirrored project projectName pending world) :
    program.EnsuresUnder PortalCall.execute (Assumed projectName)
      (fun _ after => Mirrored project projectName pending after) world := by
  have ensures : program.Ensures PortalCall.execute
      (fun request after => request.keepsFunctions = true ∧
        Mirrored project projectName pending after)
      (fun _ after => Mirrored project projectName pending after) world := along.ensures
    (fun request circumstance before keeps held =>
      held.congr (sameFunctions_execute keeps circumstance before)) mirrored
  exact ensures.under

theorem mirrored_keeping {pending : Option FunctionRow} {request : PortalCall}
    {next : request.Response → PortalProgram Result} {post : Result → World → Prop}
    (keeps : request.keepsFunctions = true) (mirrored : Mirrored project projectName pending world)
    (answered : ∀ response after, Mirrored project projectName pending after →
      (next response).EnsuresUnder PortalCall.execute (Assumed projectName) post after) :
    (perform request >>= next).EnsuresUnder PortalCall.execute (Assumed projectName) post world :=
  fun circumstance _ =>
    answered _ _ (mirrored.congr (sameFunctions_execute keeps circumstance world))

variable {name language path : String} {isAsync : Bool} {createdBy : Bytes}

/-- A statement that stores a row is refused or leaves a row that waits. -/
theorem mirrored_createRow
    {next : Except DbError FunctionRow → PortalProgram Result}
    (mirrored : Mirrored project projectName none world)
    (failed : ∀ err after, Mirrored project projectName none after →
      EnsuresMirrored project projectName (next (.error err)) after)
    (stored : ∀ (row : FunctionRow) (after : World), row.name = name → row.language = language →
      row.isAsync = isAsync → Mirrored project projectName (some row) after →
      EnsuresMirrored project projectName (next (.ok row)) after) :
    EnsuresMirrored project projectName
      (functionQuery (.createFunction project name language path isAsync createdBy) >>= next)
      world := by
  rintro circumstance ⟨-, notLost⟩
  have refused (err : DbError) : EnsuresMirrored project projectName (next (.error err))
      { world with clock := world.clock + circumstance.elapsed } :=
    failed err _ (mirrored.congr ⟨rfl, rfl, rfl⟩)
  simp only [PortalCall.execute]
  cases faultEq : circumstance.fault with
  | refused => exact refused _
  | lost => exact absurd faultEq (notLost rfl)
  | none =>
      simp only [Query.execute, FunctionQuery.execute]
      split
      · exact refused _
      · split
        · exact refused _
        · next functions inserted =>
            exact stored _ _ rfl rfl rfl (mirrored.insert inserted rfl rfl rfl rfl)

/-- The remote call creates the object of the row that waits. -/
theorem mirrored_createCRD (settings : Settings) {row : FunctionRow}
    {req : Operator.CreateFunctionRequest} {next : Option Bool → PortalProgram Result}
    (reqEq : req = creationOf settings projectName row) (hasLanguage : row.language ≠ "")
    (mirrored : Mirrored project projectName (some row) world)
    (created : ∀ response after, Mirrored project projectName none after →
      EnsuresMirrored project projectName (next response) after) :
    EnsuresMirrored project projectName
      (createFunctionCRD req >>= next) world := by
  subst reqEq
  rintro circumstance ⟨⟨noFault, available⟩, hasName, apart⟩
  have absent := mirrored.absent apart
  have complete : (creationOf settings projectName row).IsComplete :=
    ⟨by simp [creationOf], hasName, mirrored.named, hasLanguage⟩
  obtain ⟨-, written, contentEq, stores⟩ :=
    (Operator.createFunction_created complete absent).ends
      (forall_mem_stepsAlone (fun choice : ApiCall.Circumstance => choice.unavailable = false) available)
  simp only [PortalCall.execute, noFault]
  exact created _ _ (mirrored.register rfl contentEq stores)

theorem langExt_ne_empty {language : String} (known : Language.langExt language ≠ "") :
    language ≠ "" := by
  rintro rfl
  exact known (by decide +kernel)

variable {settings : Settings} {c : Context}

theorem createFunction_mirrored (onProject : ∀ context ∈ c.project,
      context.projectUUID = project ∧ context.projectName = projectName)
    (mirrored : Mirrored project projectName none world)
    (body : Option FunctionHandlers.CreateFunctionRequest) :
    EnsuresMirrored project projectName (FunctionHandlers.createFunction settings c body) world := by
  unfold FunctionHandlers.createFunction Context.mustGetProject
  cases hasProject : c.project with
  | none => exact mirrored
  | some context =>
      obtain ⟨rfl, rfl⟩ := onProject context hasProject
      cases body with
      | none => exact mirrored
      | some req =>
          simp only
          split
          · exact mirrored
          · next known =>
              apply mirrored_keeping rfl mirrored
              intro response after held
              cases response with
              | error err => exact held
              | ok fns =>
                  simp only
                  split
                  · exact held
                  · refine ensuresUnder_bind.mpr ((mirrored_of_keeping
                      ((FunctionHandlers.mkdirs_makes (fun _ => rfl) _).along []) held).imp
                      fun _ after held => ?_)
                    apply mirrored_keeping rfl held
                    intro isCreated after held
                    cases isCreated with
                    | false => exact held
                    | true =>
                        refine ensuresUnder_bind.mpr ((mirrored_of_keeping
                          ((FunctionHandlers.commitAndPush_makes (fun _ => rfl) _ _).along []) held).imp fun pushed after held => ?_)
                        cases pushed with
                        | some replies => exact held
                        | none =>
                            refine mirrored_createRow held (fun err after held => held) ?_
                            intro row after nameEq languageEq isAsyncEq waits
                            have hasLanguage : row.language ≠ "" :=
                              languageEq ▸ langExt_ne_empty known
                            apply mirrored_keeping rfl waits
                            intro _ after waits
                            refine mirrored_createCRD settings ?_ hasLanguage waits fun _ _ held => held
                            rw [creationOf, nameEq, languageEq, isAsyncEq]

theorem ensureEndpoint_mirrored {pending : Option FunctionRow} (s : FunctionHandlers.SyncContext)
    (fnID : Uuid) (fnName : String) (mirrored : Mirrored project projectName pending world) :
    (FunctionHandlers.ensureEndpoint s fnID fnName).EnsuresUnder PortalCall.execute
      (Assumed projectName) (fun _ after => Mirrored project projectName pending after) world := by
  unfold FunctionHandlers.ensureEndpoint
  split
  · exact mirrored
  · exact mirrored_keeping rfl mirrored fun _ _ held => held

theorem extLang_ne_empty {extension lang : String}
    (found : FunctionHandlers.extLang extension = some lang) : lang ≠ "" := by
  obtain ⟨language, -, rfl⟩ := Option.map_eq_some_iff.mp found
  cases language <;> decide

theorem syncFile_mirrored {s : FunctionHandlers.SyncContext} (path : String)
    (mirrored : Mirrored s.projectUUID s.projectName none world) :
    EnsuresMirrored s.projectUUID s.projectName (FunctionHandlers.syncFile settings s path) world := by
  unfold FunctionHandlers.syncFile
  cases foundLang : FunctionHandlers.extLang (FunctionHandlers.ext path) with
  | none => exact mirrored
  | some lang =>
      simp only
      cases s.existingPath path with
      | some id => exact ensureEndpoint_mirrored s id _ mirrored
      | none =>
          refine mirrored_createRow mirrored (fun err after held => held) ?_
          intro row after nameEq languageEq isAsyncEq waits
          have hasLanguage : row.language ≠ "" := languageEq ▸ extLang_ne_empty foundLang
          refine ensuresUnder_bind.mpr ((ensureEndpoint_mirrored s row.id _ waits).imp
            fun _ after waits => ?_)
          refine mirrored_createCRD settings ?_ hasLanguage waits fun _ _ held => held
          rw [creationOf, nameEq, languageEq, isAsyncEq]

theorem syncFiles_mirrored {s : FunctionHandlers.SyncContext} (paths : List String)
    (mirrored : Mirrored s.projectUUID s.projectName none world) :
    EnsuresMirrored s.projectUUID s.projectName (FunctionHandlers.syncFiles settings s paths)
      world := by
  induction paths generalizing world with
  | nil => exact mirrored
  | cons path paths ih =>
      exact ensuresUnder_bind.mpr ((syncFile_mirrored path mirrored).imp fun _ _ held => ih held)

theorem syncRepoFunctionsToDb_mirrored (userID : Bytes)
    (mirrored : Mirrored project projectName none world) :
    EnsuresMirrored project projectName
      (FunctionHandlers.syncRepoFunctionsToDb settings project projectName userID) world := by
  unfold FunctionHandlers.syncRepoFunctionsToDb
  apply mirrored_keeping rfl mirrored
  intro isNew after held
  cases isNew with
  | false => exact held
  | true =>
      apply mirrored_keeping rfl held
      intro response after held
      cases response with
      | error err => exact held
      | ok existingFns =>
          apply mirrored_keeping rfl held
          intro response after held
          cases response with
          | error err => exact held
          | ok existingEps =>
              apply mirrored_keeping rfl held
              intro files after held
              exact ensuresUnder_bind.mpr (syncFiles_mirrored
                (s := ⟨project, projectName, userID, existingFns, existingEps⟩) files held)

theorem syncProject_mirrored (onProject : ∀ context ∈ c.project,
      context.projectUUID = project ∧ context.projectName = projectName)
    (mirrored : Mirrored project projectName none world) :
    EnsuresMirrored project projectName (ProjectHandlers.syncProject settings c) world := by
  unfold ProjectHandlers.syncProject Context.mustGetProject
  cases hasProject : c.project with
  | none => exact mirrored
  | some context =>
      obtain ⟨rfl, rfl⟩ := onProject context hasProject
      refine ensuresUnder_bind.mpr ((syncRepoFunctionsToDb_mirrored c.userID mirrored).imp
        fun synced after held => ?_)
      cases synced with
      | false => exact held
      | true =>
          apply mirrored_keeping rfl held
          intro client after held
          cases client with
          | error text => exact held
          | ok _ =>
              apply mirrored_keeping rfl held
              intro added after held
              cases added <;> exact held

theorem saveFile_mirrored (name path : String) (content : Bytes)
    (mirrored : Mirrored project projectName none world) :
    EnsuresMirrored project projectName (FunctionHandlers.saveFile name path content) world := by
  unfold FunctionHandlers.saveFile
  apply mirrored_keeping rfl mirrored
  intro isCreated after held
  cases isCreated with
  | false => exact held
  | true => 
      exact mirrored_of_keeping
        ((FunctionHandlers.commitAndPush_makes (fun _ => rfl) _ _).along []) held

theorem updateFromJson_mirrored (name path : String) (req : FunctionHandlers.UpdateFunctionRequest)
    (mirrored : Mirrored project projectName none world) :
    EnsuresMirrored project projectName (FunctionHandlers.updateFromJson name path req) world := by
  unfold FunctionHandlers.updateFromJson
  extract_lets saveAndMove
  have rest : ∀ isAsync after, Mirrored project projectName none after →
      EnsuresMirrored project projectName (saveAndMove isAsync) after := by
    intro isAsync after held
    unfold saveAndMove
    extract_lets move
    have moves : ∀ saved after, Mirrored project projectName none after →
        EnsuresMirrored project projectName (move saved) after := by
      intro saved after held
      unfold move
      cases saved with
      | error replies => exact held
      | ok status =>
          simp only
          split
          · exact held
          · apply mirrored_keeping rfl held
            intro response after held
            cases response <;> exact held
    split
    · exact moves (.ok []) _ held
    · refine ensuresUnder_bind.mpr ((saveFile_mirrored name path _ held).imp
        fun saved after held => ?_)
      cases saved with
      | some replies => exact moves (.error replies) _ held
      | none => exact moves (.ok [("status", .str "saved")]) _ held
  split
  · exact rest [] _ mirrored
  · apply mirrored_keeping rfl mirrored
    intro response after held
    cases response with
    | error err => exact rest [] _ held
    | ok upd => exact rest [("is_async", .bool upd.isAsync)] _ held

theorem updateFunction_mirrored (fnID : String) (body : FunctionHandlers.UpdateBody)
    (mirrored : Mirrored project projectName none world) :
    EnsuresMirrored project projectName (FunctionHandlers.updateFunction c fnID body) world := by
  unfold FunctionHandlers.updateFunction Context.mustGetProject
  cases HexText.decode fnID with
  | none => exact mirrored
  | some bytes =>
      simp only
      split
      · exact mirrored
      · apply mirrored_keeping rfl mirrored
        intro response after held
        cases response with
        | error err => exact held
        | ok f =>
            cases c.project with
            | none => exact held
            | some context =>
                rcases body with (_ | content) | (_ | req)
                · exact held
                · refine ensuresUnder_bind.mpr ((saveFile_mirrored _ _ _ held).imp
                    fun saved after held => ?_)
                  cases saved <;> exact held
                · exact held
                · exact updateFromJson_mirrored _ _ _ held

/-- The operations other than deletions keep the mirrors. -/
theorem handle_mirrored {cookies : Cookies} {route : ProjectRoute}
    (changes : route.changesFunctions = true) (noDeletion : ∀ fnID, route ≠ .deleteFunction fnID)
    (onProject : ∀ context ∈ c.project,
      context.projectUUID = project ∧ context.projectName = projectName)
    (mirrored : Mirrored project projectName none world) :
    EnsuresMirrored project projectName (route.handle settings cookies c) world := by
  cases route with
  | createFunction body => exact createFunction_mirrored onProject mirrored body
  | updateFunction fnID body => exact updateFunction_mirrored fnID body mirrored
  | syncProject => exact syncProject_mirrored onProject mirrored
  | deleteFunction fnID => exact absurd rfl (noDeletion fnID)
  | _ => cases changes

end Programs

/-! ### Requests -/

section Requests

variable {project : Uuid} {projectName : String} {first world : World} {cookies : Cookies}

theorem Uuid.copy_val (id : Uuid) : Uuid.copy id.val = id := by
  apply Subtype.ext
  show (id.val ++ List.replicate 16 0).take 16 = id.val
  have taken := @List.take_left _ id.val (List.replicate 16 0)
  rwa [id.property] at taken

theorem Kept.sameFunctions {after : World} (kept : Kept world after) : SameFunctions world after where
  functions := congrArg Database.functions kept.database
  projects := congrArg Database.projects kept.database
  objects := congrArg Cluster.functions kept.functionObjects

/-- The middleware sets the project of the cookie. -/
theorem projectMiddleware_ensures
    (onProject : cookies.project.bind HexText.decode = some project.val)
    (stored : ∃ row, world.db.project? project = some row ∧ row.name = projectName) :
    Ensures (fun _ _ => True)
      (fun result after => Kept world after ∧ ∀ context, result = .ok context →
        context.projectUUID = project ∧ context.projectName = projectName)
      (projectMiddleware cookies) world := by
  obtain ⟨projectIDHex, hasCookie, decoded⟩ := Option.bind_eq_some_iff.mp onProject
  obtain ⟨row, found, rfl⟩ := stored
  have long : ¬ project.val.length ≠ 16 := not_not_intro project.property
  unfold projectMiddleware
  simp only [hasCookie, decoded, if_neg long, Uuid.copy_val]
  refine ensures_read rfl trivial (fun after kept => ⟨kept, by simp⟩) fun moment after kept _ => ?_
  simp only [Query.execute, ProjectQuery.execute, Uuid.copy_val, found, oneRow]
  apply And.intro trivial
  intro circumstance
  have quiet : (PortalCall.repo row.name .new).IsQuiet := ⟨rfl, rfl, fun _ => PortalCall.noConfusion⟩
  have later := kept.trans (kept_execute quiet circumstance after)
  cases (PortalCall.execute (.repo row.name .new) circumstance after).1 with
  | false => exact ⟨later, by simp⟩
  | true =>
      apply And.intro later
      intro context isContext
      rw [← Except.ok.inj isContext]
      exact ⟨rfl, rfl⟩

variable {Response : Type} {settings : Settings} {authn : Passkeys.WebAuthn Response}

/-- A request that counts and deletes nothing keeps the mirrors. -/
theorem serve_mirrored {served : Served Response}
    (succeeds : Succeeds settings authn project served world)
    (harmonious : Harmonious settings authn projectName served world)
    (mirrored : Mirrored project projectName none world) :
    Mirrored project projectName none (served.run settings authn world).2 := by
  obtain ⟨⟨cookies, route⟩, circumstances⟩ := served
  obtain ⟨route, rfl, changes⟩ := succeeds.operation
  have noDeletion : ∀ fnID, route ≠ .deleteFunction fnID := fun fnID isDeletion =>
    harmonious.noDeletion fnID (congrArg Route.project isDeletion)
  have ensures : EnsuresMirrored project projectName
      (protect cookies route.path fun c => route.handle settings cookies c) world := by
    unfold protect
    refine ensuresUnder_bind.mpr ((authMiddleware_ensures cookies route.path world).under.imp ?_)
    rintro (replies | c) after ⟨kept, valid⟩
    · exact mirrored.congr kept.sameFunctions
    · have held := mirrored.congr kept.sameFunctions
      refine ensuresUnder_bind.mpr
        ((projectMiddleware_ensures succeeds.onProject held.stored).under.imp ?_)
      rintro (replies | context) last ⟨keptLast, isContext⟩
      · refine ensuresUnder_bind.mpr (handle_mirrored changes noDeletion ?_
          (held.congr keptLast.sameFunctions))
        rw [(valid c rfl).2]
        rintro context ⟨⟩
      · refine handle_mirrored changes noDeletion ?_ (held.congr keptLast.sameFunctions)
        rintro other ⟨⟩
        exact isContext context rfl
  exact ensures.ends fun step member =>
    ⟨succeeds.reaches step member, harmonious.keepsApart step member⟩

end Requests

/-! ### A function that is deleted and created again -/

/-- A project without functions, of a user with a session. -/
def newProjectWorld : World :=
  { oneFunctionWorld with db := { oneFunctionWorld.db with functions := .empty } }

/-- A request on the project; its repository has these files. -/
def shopRequest (files : List String) (route : ProjectRoute) : Served Unit where
  request :=
    { cookies :=
        { session := some "s"
          project := some "01000000000000000000000000000000" }
      route := .project route }
  circumstances _ := { files }

def syncLua : Served Unit :=
  shopRequest ["/functions/lua/total.lua"] .syncProject

def deleteTotal : Served Unit :=
  shopRequest [] (.deleteFunction "00000000000000000000000000000000")

def syncPython : Served Unit :=
  shopRequest ["/functions/python/total.py"] .syncProject

def afterLua : World :=
  (syncLua.run exampleSettings refusingAuthn newProjectWorld).2

def afterDeletion : World :=
  (deleteTotal.run exampleSettings refusingAuthn afterLua).2

def afterPython : World :=
  (syncPython.run exampleSettings refusingAuthn afterDeletion).2

instance (projectName : String) : ∀ request circumstance world,
    Decidable (KeepsApart projectName request circumstance world)
  | .createFunctionCRD req, _, world => inferInstanceAs (Decidable (req.name ≠ "" ∧
      ∀ object ∈ world.cluster.functions.find? ⟨"default", req.name⟩, _))
  | .query statement, circumstance, _ =>
      inferInstanceAs (Decidable (statement.storesFunction = true → circumstance.fault ≠ .lost))
  | .begin, _, _ | .commit, _, _ | .rollback, _, _ | .repo _ _, _, _ | .newVendorClient, _, _
  | .vcs _ _, _, _ | .drawInvite, _, _ | .drawKey, _, _ | .drawChallenge, _, _
  | .drawSessionID, _, _ | .now, _, _ | .clientGone, _, _ => isTrue trivial

theorem newProjectWorld_isNew : IsNew (.copy [1]) "shop" newProjectWorld where
  stored := ⟨_, rfl, rfl⟩
  named := by decide
  noRow row member := by cases member
  noObject object member := by cases member

/-- In these circumstances every remote call reaches the operator. -/
theorem shopRequest_succeeds {files : List String} {route : ProjectRoute} {world : World}
    (changes : route.changesFunctions = true)
    (success : ∀ reply ∈ ((shopRequest files route).run exampleSettings refusingAuthn world).1,
      reply.isSuccess = true) :
    Succeeds exampleSettings refusingAuthn (.copy [1]) (shopRequest files route) world where
  operation := ⟨route, rfl, changes⟩
  onProject := by
    show HexText.decode "01000000000000000000000000000000" = some (Uuid.copy [1]).val
    decide +kernel
  success := success
  reaches := by
    intro step member
    have circumstance : step.2.1 = { files } :=
      forall_mem_stepsAlone (fun choice => choice = { files }) (fun _ => rfl) step member
    obtain ⟨request, choice, before⟩ := step
    obtain rfl := circumstance
    cases request <;> first | trivial | exact ⟨rfl, fun _ => rfl⟩

end Portal

end Litefunctions
