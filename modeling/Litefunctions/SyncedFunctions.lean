import Litefunctions.PortalSpecs
import Litefunctions.RepositoryWalks

/-!
# Functions that are synchronised from a repository

The walk over the files of a repository looks at the rows that were there when
it began, and adds a row for each new file and an endpoint for each function
without one.  It only adds, at most one row of each kind for a file; what it
could not add, because a name is taken, it cannot add the next time either.
-/

namespace Litefunctions

namespace Portal

open Program

/-! ### The order of functions -/

/-- `ORDER BY language ASC, created_at DESC`. -/
def FunctionRow.ListedBefore (first second : FunctionRow) : Prop :=
  first.language < second.language ∨
    (first.language = second.language ∧ second.createdAt ≤ first.createdAt)

instance : DecidableRel FunctionRow.ListedBefore :=
  fun _ _ => inferInstanceAs (Decidable (_ ∨ _))

instance : IsTrans FunctionRow FunctionRow.ListedBefore := by
  constructor
  intro first second third begins ends
  rcases begins with less | ⟨same, older⟩
  · rcases ends with more | ⟨same, -⟩
    · exact .inl (String.lt_trans less more)
    · exact .inl (same ▸ less)
  · rcases ends with more | ⟨sameNext, olderNext⟩
    · exact .inl (same ▸ more)
    · exact .inr ⟨same.trans sameNext, Int.le_trans olderNext older⟩

instance : Std.Total FunctionRow.ListedBefore := by
  constructor
  intro first second
  by_cases less : first.language < second.language
  · exact .inl (.inl less)
  · by_cases more : second.language < first.language
    · exact .inr (.inl more)
    · have same : first.language = second.language :=
        String.le_antisymm (String.not_lt.mp more) (String.not_lt.mp less)
      rcases Int.le_total first.createdAt second.createdAt with older | younger
      · exact .inr (.inr ⟨same.symm, older⟩)
      · exact .inl (.inr ⟨same, younger⟩)

namespace FunctionHandlers

/-! ### What the walk adds -/

/-- The name of the function in a file. -/
@[irreducible]
def nameOf (path : String) : String :=
  trimSuffix (base path) (ext path)

theorem trimSuffix_base (path : String) : trimSuffix (base path) (ext path) = nameOf path := by
  rw [nameOf]

/-- The repository lists these files, no call fails but where a row conflicts
with another one, and ids of new rows are new. -/
def Undisturbed (files : List String) : PortalCall → PortalCall.Circumstance → World → Prop
  | .query _, circumstance, world => circumstance.fault = .none ∧
      (∀ row ∈ world.db.functions.rows, row.id ≠ circumstance.fresh) ∧
      ∀ row ∈ world.db.endpoints.rows, row.id ≠ circumstance.fresh
  | .repo _ .new, circumstance, _ => circumstance.fault = .none
  | .repo _ (.listFiles _), circumstance, _ => circumstance.files = files
  | _, _, _ => True

/-- The row of a function that was found in a file. -/
def IsFunctionOf (projectUUID : Uuid) (row : FunctionRow) (path : String) : Prop :=
  row.projectID = projectUUID ∧ row.path = path ∧ row.name = nameOf path ∧
    extLang (ext path) = some row.language

/-- The endpoint that the function in a file gets. -/
def IsEndpointOf (projectUUID : Uuid) (projectName : String) (row : Endpoint) (path : String) :
    Prop :=
  row.projectID = projectUUID ∧ row.name = s!"/{projectName}/{nameOf path}" ∧ row.method = "GET"

/-- What synchronising these files does: rows are only added, at most one
function and one endpoint for each file, and each file with a known extension
has a row then, unless its name is taken. -/
structure Synced (projectUUID : Uuid) (projectName : String) (files : List String)
    (before after : Database) : Prop where
  functions : ∃ added, after.functions.rows = before.functions.rows ++ added ∧
    List.SublistForall₂ (IsFunctionOf projectUUID) added files
  endpoints : ∃ added, after.endpoints.rows = before.endpoints.rows ++ added ∧
    List.SublistForall₂ (IsEndpointOf projectUUID projectName) added files
  others : { after with functions := before.functions, endpoints := before.endpoints } = before
  complete : ∀ path ∈ files, (extLang (ext path)).isSome → ∃ row ∈ after.functions.rows,
    row.projectID = projectUUID ∧ (row.path = path ∨ row.name = nameOf path)

/-! ### One file -/

/-- Another function of the project has the name. -/
def NameTaken (projectUUID : Uuid) (db : Database) (name : String) : Prop :=
  ∃ row ∈ db.functions.rows, row.projectID = projectUUID ∧ row.name = name

/-- The function has an endpoint for `GET`, or it cannot get the one of its
name. -/
def Served (s : SyncContext) (db : Database) (id : Uuid) (name : String) : Prop :=
  ∃ row ∈ db.endpoints.rows, row.projectID = s.projectUUID ∧ row.method = "GET" ∧
    (row.functionID = id ∨ row.name = s!"/{s.projectName}/{name}")

/-- The rows that were read are still there, and new rows have their project
and user. -/
structure Knows (s : SyncContext) (db : Database) : Prop where
  project : (db.project? s.projectUUID).isSome
  user : (db.user? s.userID).isSome
  functions : ∀ row ∈ s.existingFns, row ∈ db.functions.rows ∧ row.projectID = s.projectUUID
  endpoints : ∀ ep ∈ s.existingEps, ep.endpoint ∈ db.endpoints.rows ∧
    ep.endpoint.projectID = s.projectUUID

/-- How the database grows while these files are handled. -/
structure Grows (s : SyncContext) (files : List String) (before after : Database) : Prop where
  functions : ∃ added, after.functions.rows = before.functions.rows ++ added ∧
    List.SublistForall₂ (IsFunctionOf s.projectUUID) added files ∧
    ∀ row ∈ added, s.existingPath row.path = none ∧ Served s after row.id (nameOf row.path)
  endpoints : ∃ added, after.endpoints.rows = before.endpoints.rows ++ added ∧
    List.SublistForall₂ (IsEndpointOf s.projectUUID s.projectName) added files
  others : { after with functions := before.functions, endpoints := before.endpoints } = before
  done : ∀ path ∈ files, (extLang (ext path)).isSome →
    (∀ id, s.existingPath path = some id → Served s after id (nameOf path)) ∧
      (s.existingPath path = none → NameTaken s.projectUUID after (nameOf path))

section Growth

variable {s : SyncContext} {files early late : List String} {before between after : Database}

theorem Grows.functions_mem (grows : Grows s files before after) {row : FunctionRow}
    (member : row ∈ before.functions.rows) : row ∈ after.functions.rows := by
  obtain ⟨added, rows, -⟩ := grows.functions
  rw [rows]
  exact List.mem_append_left _ member

theorem Grows.endpoints_mem (grows : Grows s files before after) {row : Endpoint}
    (member : row ∈ before.endpoints.rows) : row ∈ after.endpoints.rows := by
  obtain ⟨added, rows, -⟩ := grows.endpoints
  rw [rows]
  exact List.mem_append_left _ member

theorem Grows.served (grows : Grows s files before after) {id : Uuid} {name : String}
    (served : Served s before id name) : Served s after id name := by
  obtain ⟨row, member, isOf⟩ := served
  exact ⟨row, grows.endpoints_mem member, isOf⟩

theorem Grows.nameTaken (grows : Grows s files before after) {name : String}
    (taken : NameTaken s.projectUUID before name) : NameTaken s.projectUUID after name := by
  obtain ⟨row, member, isOf⟩ := taken
  exact ⟨row, grows.functions_mem member, isOf⟩

theorem Grows.knows (grows : Grows s files before after) (knows : Knows s before) :
    Knows s after := by
  have projects : after.projects = before.projects := congrArg (·.projects) grows.others
  have users : after.users = before.users := congrArg (·.users) grows.others
  refine ⟨?_, ?_, fun row member => ?_, fun ep member => ?_⟩
  · rw [Database.project?, projects]
    exact knows.project
  · rw [Database.user?, users]
    exact knows.user
  · exact ⟨grows.functions_mem (knows.functions row member).1, (knows.functions row member).2⟩
  · exact ⟨grows.endpoints_mem (knows.endpoints ep member).1, (knows.endpoints ep member).2⟩

theorem grows_nil (db : Database) : Grows s [] db db :=
  ⟨⟨[], by simp, .nil, by simp⟩, ⟨[], by simp, .nil⟩, rfl, by simp⟩

theorem Grows.append (begins : Grows s early before between) (ends : Grows s late between after) :
    Grows s (early ++ late) before after := by
  obtain ⟨added, rows, isOf, served⟩ := begins.functions
  obtain ⟨more, moreRows, moreOf, moreServed⟩ := ends.functions
  obtain ⟨addedEps, epRows, epOf⟩ := begins.endpoints
  obtain ⟨moreEps, moreEpRows, moreEpOf⟩ := ends.endpoints
  refine ⟨⟨added ++ more, by rw [moreRows, rows, List.append_assoc],
    sublistForall₂_append isOf moreOf, ?_⟩, ⟨addedEps ++ moreEps,
    by rw [moreEpRows, epRows, List.append_assoc], sublistForall₂_append epOf moreEpOf⟩, ?_, ?_⟩
  · intro row member
    rcases List.mem_append.mp member with old | new
    · exact ⟨(served row old).1, ends.served (served row old).2⟩
    · exact moreServed row new
  · rw [← begins.others, ← ends.others]
  · intro path member isKnown
    rcases List.mem_append.mp member with old | new
    · obtain ⟨isServed, isTaken⟩ := begins.done path old isKnown
      exact ⟨fun id found => ends.served (isServed id found),
        fun missing => ends.nameTaken (isTaken missing)⟩
    · exact ends.done path new isKnown

end Growth

section OneFile

variable {settings : Settings} {s : SyncContext} {files : List String} {world : World}

/-- A statement is answered by the database, with an id that is new. -/
theorem under_query {Result : Type} {post : Result → World → Prop} {statement : Query}
    {next : Except DbError statement.Value → PortalProgram Result}
    (answered : ∀ (moment : Moment) (after : World),
      (∀ row ∈ world.db.functions.rows, row.id ≠ moment.fresh) →
      (∀ row ∈ world.db.endpoints.rows, row.id ≠ moment.fresh) →
      after.db = (statement.execute moment world.db).2 →
        (next (statement.execute moment world.db).1).EnsuresUnder PortalCall.execute
          (Undisturbed files) post after) :
    (call (.query statement) next : PortalProgram Result).EnsuresUnder PortalCall.execute
      (Undisturbed files) post world := by
  rintro circumstance ⟨noFault, newFunction, newEndpoint⟩
  simp only [PortalCall.execute, noFault]
  exact answered ⟨_, circumstance.fresh⟩ _ newFunction newEndpoint rfl

/-- What `ensureEndpoint` adds. -/
structure AddsEndpoint (s : SyncContext) (path : String) (id : Uuid) (before after : Database) :
    Prop where
  endpoints : ∃ added, after.endpoints.rows = before.endpoints.rows ++ added ∧
    List.SublistForall₂ (IsEndpointOf s.projectUUID s.projectName) added [path]
  others : { after with endpoints := before.endpoints } = before
  served : Served s after id (nameOf path)

theorem addsEndpoint_self {path : String} {id : Uuid} {db : Database}
    (served : Served s db id (nameOf path)) : AddsEndpoint s path id db db :=
  ⟨⟨[], by simp, .nil⟩, rfl, served⟩

theorem served_of_hasGet {id : Uuid} {name : String} (knows : Knows s world.db)
    (hasGet : s.hasGet id = true) : Served s world.db id name := by
  obtain ⟨ep, member, isGet⟩ := List.any_eq_true.mp hasGet
  obtain ⟨isOf, isMethod⟩ := of_decide_eq_true isGet
  exact ⟨ep.endpoint, (knows.endpoints ep member).1, (knows.endpoints ep member).2, isMethod,
    .inl isOf⟩

theorem ensureEndpoint_adds (path : String) {id : Uuid} (knows : Knows s world.db)
    (exists_ : (world.db.function? id).isSome) :
    (ensureEndpoint s id (nameOf path)).EnsuresUnder PortalCall.execute (Undisturbed files)
      (fun _ after => AddsEndpoint s path id world.db after.db) world := by
  unfold ensureEndpoint
  split
  · next hasGet => exact addsEndpoint_self (served_of_hasGet knows hasGet)
  · apply under_query
    intro moment after _ newEndpoint afterEq
    show AddsEndpoint s path id world.db after.db
    rw [afterEq]
    have present : ¬ ((world.db.project? s.projectUUID).isNone = true ∨
        (world.db.function? id).isNone = true ∨
        (!EndpointQuery.validScope "public") = true) := by
      have scope : EndpointQuery.validScope "public" = true := by decide
      simp [scope, Option.isSome_iff_ne_none.mp knows.project, Option.isSome_iff_ne_none.mp exists_]
    simp only [Query.execute, EndpointQuery.execute]
    rw [if_neg present]
    split
    · next refused =>
        obtain ⟨other, member, conflict⟩ := Table.insert_eq_none_iff.mp refused
        rcases of_decide_eq_true conflict with sameID | ⟨sameProject, sameName, sameMethod⟩
        · exact absurd sameID (newEndpoint other member)
        · exact addsEndpoint_self ⟨other, member, sameProject, sameMethod, .inr sameName⟩
    · next endpoints inserted =>
        have rows := Table.rows_insert inserted
        refine ⟨⟨_, rows, .cons ⟨rfl, rfl, rfl⟩ .nil⟩, rfl, ?_⟩
        exact ⟨_, rows ▸ List.mem_append_right _ (List.mem_singleton_self _), rfl, rfl, .inl rfl⟩

/-- A path is looked up among the rows that were read. -/
theorem mem_of_existingPath {path : String} {id : Uuid} (found : s.existingPath path = some id) :
    ∃ row ∈ s.existingFns, row.path = path ∧ row.id = id := by
  obtain ⟨row, isRow, sameID⟩ := Option.map_eq_some_iff.mp found
  have isPath := List.find?_some isRow
  exact ⟨row, List.mem_reverse.mp (List.mem_of_find?_eq_some isRow), of_decide_eq_true isPath, sameID⟩

theorem ne_of_existingPath {path : String} (missing : s.existingPath path = none)
    {row : FunctionRow} (member : row ∈ s.existingFns) : row.path ≠ path := by
  have unwanted := List.find?_eq_none.mp (Option.map_eq_none_iff.mp missing) row
    (List.mem_reverse.mpr member)
  simpa using unwanted

theorem function?_isSome {db : Database} {row : FunctionRow} (member : row ∈ db.functions.rows) :
    (db.function? row.id).isSome :=
  List.find?_isSome.mpr ⟨row, member, decide_eq_true rfl⟩

theorem AddsEndpoint.grows {path : String} {id : Uuid} {before after : Database}
    (adds : AddsEndpoint s path id before after) (found : s.existingPath path = some id) :
    Grows s [path] before after := by
  have functions : after.functions = before.functions := congrArg (·.functions) adds.others
  refine ⟨⟨[], by simp [functions], .nil, by simp⟩, adds.endpoints, ?_, ?_⟩
  · rw [← functions]
    exact adds.others
  · intro other member _
    rw [List.mem_singleton.mp member, found]
    refine ⟨fun otherID sameID => ?_, by rintro ⟨⟩⟩
    rw [← Option.some.inj sameID]
    exact adds.served

/-- A new row and its endpoint. -/
theorem AddsEndpoint.grows_new {path : String} {row : FunctionRow} {before between after : Database}
    {functions : Table FunctionRow FunctionRow.conflicts}
    (betweenEq : between = { before with functions })
    (rows : functions.rows = before.functions.rows ++ [row])
    (isOf : IsFunctionOf s.projectUUID row path) (missing : s.existingPath path = none)
    (adds : AddsEndpoint s path row.id between after) : Grows s [path] before after := by
  subst betweenEq
  have sameFunctions : after.functions = functions := congrArg (·.functions) adds.others
  have ⟨isProject, isPath, isName, _⟩ := isOf
  refine ⟨⟨[row], by rw [sameFunctions, rows], .cons isOf .nil, ?_⟩, adds.endpoints, ?_, ?_⟩
  · intro other member
    rw [List.mem_singleton.mp member, isPath]
    exact ⟨missing, adds.served⟩
  · exact congrArg (fun db : Database => { db with functions := before.functions }) adds.others
  · intro other member _
    rw [List.mem_singleton.mp member, missing]
    refine ⟨by rintro id ⟨⟩, fun _ => ⟨row, ?_, isProject, isName⟩⟩
    rw [sameFunctions, rows]
    exact List.mem_append_right _ (List.mem_singleton_self _)

/-- The row of a new function is added unless its name is taken. -/
theorem createFunction_spec {db : Database} (project : (db.project? s.projectUUID).isSome)
    (user : (db.user? s.userID).isSome) (moment : Moment)
    (newFunction : ∀ row ∈ db.functions.rows, row.id ≠ moment.fresh) (name lang path : String) :
    let statement := FunctionQuery.createFunction s.projectUUID name lang path false s.userID
    let row : FunctionRow :=
      ⟨moment.fresh, s.projectUUID, name, lang, path, false, s.userID, moment.now⟩
    (statement.execute moment db = (.error .constraint, db) ∧ NameTaken s.projectUUID db name) ∨
      ∃ functions : Table FunctionRow FunctionRow.conflicts,
        statement.execute moment db = (.ok row, { db with functions }) ∧
          functions.rows = db.functions.rows ++ [row] ∧ row ∈ functions.rows := by
  intro statement row
  have present : ¬ ((db.project? s.projectUUID).isNone = true ∨
      (db.user? s.userID).isNone = true) := by
    simp [Option.isSome_iff_ne_none.mp project, Option.isSome_iff_ne_none.mp user]
  simp only [statement, FunctionQuery.execute, if_neg present]
  cases inserted : db.functions.insert row with
  | none =>
      obtain ⟨other, member, conflict⟩ := Table.insert_eq_none_iff.mp inserted
      rcases of_decide_eq_true conflict with sameID | ⟨sameProject, sameName⟩
      · exact absurd sameID (newFunction other member)
      · exact .inl ⟨rfl, other, member, sameProject, sameName⟩
  | some functions =>
      have rows := Table.rows_insert inserted
      exact .inr ⟨functions, rfl, rows, rows ▸ List.mem_append_right _ (List.mem_singleton_self _)⟩

/-- What handling one file does. -/
theorem syncFile_grows (path : String) (knows : Knows s world.db) :
    (syncFile settings s path).EnsuresUnder PortalCall.execute (Undisturbed files)
      (fun _ after => Grows s [path] world.db after.db) world := by
  have nothing (db : Database) (done : (extLang (ext path)).isSome →
      s.existingPath path = none ∧ NameTaken s.projectUUID db (nameOf path)) :
      Grows s [path] db db := by
    refine ⟨⟨[], by simp, .nil, by simp⟩, ⟨[], by simp, .nil⟩, rfl, fun other member isKnown => ?_⟩
    rw [List.mem_singleton.mp member] at isKnown ⊢
    obtain ⟨missing, taken⟩ := done isKnown
    rw [missing]
    exact ⟨by rintro id ⟨⟩, fun _ => taken⟩
  simp only [syncFile, trimSuffix_base]
  cases isLang : extLang (ext path) with
  | none => exact nothing world.db (by simp [isLang])
  | some lang =>
      simp only
      cases found : s.existingPath path with
      | some id =>
          obtain ⟨row, member, -, rfl⟩ := mem_of_existingPath found
          exact (ensureEndpoint_adds path knows
            (function?_isSome (knows.functions row member).1)).imp fun _ _ adds => adds.grows found
      | none =>
          apply under_query
          intro moment after newFunction _ afterEq
          simp only [Query.execute] at afterEq ⊢
          rcases createFunction_spec knows.project knows.user moment newFunction (nameOf path) lang
              path with ⟨refused, taken⟩ | ⟨functions, created, rows, member⟩
          · rw [← trimSuffix_base] at refused
            rw [refused] at afterEq ⊢
            show Grows s [path] world.db after.db
            rw [afterEq]
            exact nothing world.db fun _ => ⟨found, taken⟩
          · rw [← trimSuffix_base] at created
            rw [created] at afterEq ⊢
            have knowsAfter : Knows s after.db := by
              rw [afterEq]
              refine ⟨knows.project, knows.user, fun row member => ?_, knows.endpoints⟩
              obtain ⟨stored, isProject⟩ := knows.functions row member
              exact ⟨rows ▸ List.mem_append_left _ stored, isProject⟩
            have stored : (after.db.function? moment.fresh).isSome := by
              rw [afterEq]
              exact List.find?_isSome.mpr ⟨_, member, decide_eq_true rfl⟩
            show EnsuresUnder _ _ _ (ensureEndpoint s moment.fresh (nameOf path) >>= fun _ => _) after
            refine ensuresUnder_bind.mpr ((ensureEndpoint_adds path knowsAfter stored).imp
              fun _ last adds => ?_)
            have isOf : IsFunctionOf s.projectUUID ⟨moment.fresh, s.projectUUID, nameOf path, lang,
                path, false, s.userID, moment.now⟩ path := ⟨rfl, rfl, rfl, isLang⟩
            have grows := adds.grows_new afterEq rows isOf found
            intro circumstance _
            show Grows s [path] world.db _
            rw [PortalCall.db_execute_of_reads rfl]
            exact grows

theorem syncFiles_grows (paths : List String) {world : World} (knows : Knows s world.db) :
    (syncFiles settings s paths).EnsuresUnder PortalCall.execute (Undisturbed files)
      (fun _ after => Grows s paths world.db after.db) world := by
  induction paths generalizing world with
  | nil => exact grows_nil world.db
  | cons path paths ih =>
      refine ensuresUnder_bind.mpr ((syncFile_grows path knows).imp fun _ between begins => ?_)
      apply (ih (begins.knows knows)).imp
      intro _ after ends
      exact begins.append ends

end OneFile

/-! ### The second time -/

/-- What the walk looks at. -/
def readContext (projectUUID : Uuid) (projectName : String) (userID : Bytes) (db : Database) :
    SyncContext where
  projectUUID := projectUUID
  projectName := projectName
  userID := userID
  existingFns := FunctionQuery.ofProject projectUUID db
  existingEps := EndpointQuery.ofProject projectUUID db

section SecondTime

variable {settings : Settings} {projectUUID : Uuid} {projectName : String} {userID : Bytes}
variable {files : List String} {world : World} {before after : Database}

theorem mem_ofProject {db : Database} {row : FunctionRow} :
    row ∈ FunctionQuery.ofProject projectUUID db ↔
      row ∈ db.functions.rows ∧ row.projectID = projectUUID := by
  rw [FunctionQuery.ofProject, FunctionQuery.inOrder, List.mem_insertionSort, List.mem_filter,
    decide_eq_true_iff]

theorem mem_endpointsOfProject {db : Database} {ep : EndpointView} :
    ep ∈ EndpointQuery.ofProject projectUUID db ↔
      ∃ row ∈ db.endpoints.rows, row.projectID = projectUUID ∧
        ∃ function, db.function? row.functionID = some function ∧
          ⟨row, function.name, function.language, function.isAsync⟩ = ep := by
  simp only [EndpointQuery.ofProject, List.mem_insertionSort, List.mem_filterMap, List.mem_filter,
    decide_eq_true_iff, Option.map_eq_some_iff, and_assoc]

theorem knows_readContext (project : (before.project? projectUUID).isSome)
    (user : (before.user? userID).isSome) :
    Knows (readContext projectUUID projectName userID before) before := by
  refine ⟨project, user, fun row member => mem_ofProject.mp member, fun ep member => ?_⟩
  obtain ⟨row, stored, isProject, function, -, rfl⟩ := mem_endpointsOfProject.mp member
  exact ⟨stored, isProject⟩

/-- The last row with a path. -/
theorem existingPath_readContext (db : Database) (path : String) :
    (readContext projectUUID projectName userID db).existingPath path =
      (FunctionQuery.inOrder (db.functions.rows.filter fun row =>
        row.projectID = projectUUID ∧ row.path = path)).getLast?.map (·.id) := by
  rw [SyncContext.existingPath, ← List.getLast?_filter]
  congr 2
  have filtered := filter_insertionSort FunctionRow.ListedBefore (fun row => row.path = path)
    (db.functions.rows.filter (·.projectID = projectUUID))
  exact filtered.trans (congrArg FunctionQuery.inOrder (by simp [List.filter_filter, and_comm]))

/-- Looking at the database again, a file has the row that it had or one that
was added. -/
theorem existingPath_again {s : SyncContext}
    (read : s = readContext projectUUID projectName userID before) (grows : Grows s files before after)
    (path : String) :
    (readContext projectUUID projectName userID after).existingPath path = s.existingPath path ∨
      ∃ id, (readContext projectUUID projectName userID after).existingPath path = some id ∧
        Served s after id (nameOf path) := by
  obtain ⟨added, rows, isOf, served⟩ := grows.functions
  by_cases new : ∃ row ∈ added, row.path = path
  · obtain ⟨row, member, isPath⟩ := new
    have missing := isPath ▸ (served row member).1
    have isNew {other : FunctionRow} (stored : other ∈ after.functions.rows)
        (isProject : other.projectID = projectUUID) (sameName : other.path = path) :
        other ∈ added := by
      rw [rows] at stored
      rcases List.mem_append.mp stored with old | isAdded
      · rw [read] at missing
        exact absurd sameName (ne_of_existingPath missing (mem_ofProject.mpr ⟨old, isProject⟩))
      · exact isAdded
    cases found : (readContext projectUUID projectName userID after).existingPath path with
    | none =>
        have isProject : row.projectID = projectUUID := by
          obtain ⟨_, -, isFunction, -⟩ := related_of_sublistForall₂ isOf member
          rw [isFunction, read]
          rfl
        refine absurd isPath (ne_of_existingPath found (mem_ofProject.mpr ⟨?_, isProject⟩))
        rw [rows]
        exact List.mem_append_right _ member
    | some id =>
        obtain ⟨other, read, sameName, rfl⟩ := mem_of_existingPath found
        obtain ⟨stored, isProject⟩ := mem_ofProject.mp read
        exact .inr ⟨_, rfl, sameName ▸ (served other (isNew stored isProject sameName)).2⟩
  · left
    rw [read, existingPath_readContext, existingPath_readContext, rows, List.filter_append]
    have none : added.filter (fun row => row.projectID = projectUUID ∧ row.path = path) = [] := by
      rw [List.filter_eq_nil_iff]
      intro row member isWanted
      exact new ⟨row, member, (of_decide_eq_true isWanted).2⟩
    rw [none, List.append_nil]

/-- Whether a function has an endpoint for `GET`, looking at the database
again. -/
theorem hasGet_readContext {db : Database} {row : Endpoint} (member : row ∈ db.endpoints.rows)
    (isProject : row.projectID = projectUUID) (isMethod : row.method = "GET")
    (exists_ : (db.function? row.functionID).isSome) :
    (readContext projectUUID projectName userID db).hasGet row.functionID = true := by
  obtain ⟨function, found⟩ := Option.isSome_iff_exists.mp exists_
  refine List.any_eq_true.mpr ⟨_, mem_endpointsOfProject.mpr
    ⟨row, member, isProject, function, found, rfl⟩, decide_eq_true ⟨rfl, isMethod⟩⟩

/-- A file for which nothing can be added. -/
structure Settled (s : SyncContext) (db : Database) (path : String) : Prop where
  served : ∀ id, s.existingPath path = some id → s.hasGet id = true ∨
    ∃ row ∈ db.endpoints.rows, row.projectID = s.projectUUID ∧ row.method = "GET" ∧
      row.name = s!"/{s.projectName}/{nameOf path}"
  named : s.existingPath path = none → NameTaken s.projectUUID db (nameOf path)

theorem ensureEndpoint_settled {s : SyncContext} {id : Uuid} {name : String}
    (served : s.hasGet id = true ∨ ∃ row ∈ world.db.endpoints.rows,
      row.projectID = s.projectUUID ∧ row.method = "GET" ∧ row.name = s!"/{s.projectName}/{name}") :
    (ensureEndpoint s id name).EnsuresUnder PortalCall.execute (Undisturbed files)
      (fun _ after => after.db = world.db) world := by
  unfold ensureEndpoint
  split
  · rfl
  · next hasNone =>
      obtain ⟨row, member, isProject, isMethod, isName⟩ := served.resolve_left hasNone
      apply under_query
      intro moment after _ _ afterEq
      show after.db = world.db
      rw [afterEq]
      simp only [Query.execute, EndpointQuery.execute]
      split
      · rfl
      · rw [Table.insert_eq_none_iff.mpr
          ⟨row, member, decide_eq_true (.inr ⟨isProject, isName, isMethod⟩)⟩]

theorem syncFile_settled {s : SyncContext} {path : String}
    (settled : (extLang (ext path)).isSome → Settled s world.db path) :
    (syncFile settings s path).EnsuresUnder PortalCall.execute (Undisturbed files)
      (fun _ after => after.db = world.db) world := by
  simp only [syncFile, trimSuffix_base]
  cases isLang : extLang (ext path) with
  | none => rfl
  | some lang =>
      have settled := settled (by rw [isLang]; rfl)
      simp only
      cases found : s.existingPath path with
      | some id => exact ensureEndpoint_settled (settled.served id found)
      | none =>
          obtain ⟨row, member, isProject, isName⟩ := settled.named found
          apply under_query
          intro moment after _ _ afterEq
          simp only [Query.execute, FunctionQuery.execute] at afterEq ⊢
          have refused : world.db.functions.insert ⟨moment.fresh, s.projectUUID,
              nameOf path, lang, path, false, s.userID, moment.now⟩ = none :=
            Table.insert_eq_none_iff.mpr
              ⟨row, member, decide_eq_true (.inr ⟨isProject, isName⟩)⟩
          rw [← trimSuffix_base] at refused
          rw [refused] at afterEq ⊢
          split at afterEq
          · next absent =>
              rw [if_pos absent]
              exact afterEq
          · next present =>
              rw [if_neg present]
              exact afterEq

theorem syncFiles_settled {s : SyncContext} (paths : List String)
    (settled : ∀ path ∈ paths, (extLang (ext path)).isSome → Settled s world.db path) :
    (syncFiles settings s paths).EnsuresUnder PortalCall.execute (Undisturbed files)
      (fun _ after => after.db = world.db) world := by
  induction paths generalizing world with
  | nil => rfl
  | cons path paths ih =>
      refine ensuresUnder_bind.mpr ((syncFile_settled (settled path List.mem_cons_self)).imp
        fun _ between same => ?_)
      rw [← same]
      apply ih
      intro other member
      rw [same]
      exact settled other (List.mem_cons_of_mem _ member)

/-- After the walk, nothing can be added for a file. -/
theorem settled_of_grows {s : SyncContext}
    (read : s = readContext projectUUID projectName userID before)
    (grows : Grows s files before after) {path : String} (member : path ∈ files)
    (isKnown : (extLang (ext path)).isSome) :
    Settled (readContext projectUUID projectName userID after) after path := by
  have same : s.projectUUID = projectUUID ∧ s.projectName = projectName := by
    rw [read]
    exact ⟨rfl, rfl⟩
  obtain ⟨isServed, isTaken⟩ := grows.done path member isKnown
  have servedOf {id : Uuid} (found : (readContext projectUUID projectName userID after).existingPath
      path = some id) (served : Served s after id (nameOf path)) :
      (readContext projectUUID projectName userID after).hasGet id = true ∨
        ∃ row ∈ after.endpoints.rows, row.projectID = projectUUID ∧ row.method = "GET" ∧
          row.name = s!"/{projectName}/{nameOf path}" := by
    obtain ⟨row, stored, isProject, isMethod, isFunction | isName⟩ := served
    · obtain ⟨function, isStored, -, rfl⟩ := mem_of_existingPath found
      have isSome := function?_isSome (mem_ofProject.mp isStored).1
      rw [← isFunction] at isSome ⊢
      exact .inl (hasGet_readContext stored (isProject.trans same.1) isMethod isSome)
    · exact .inr ⟨row, stored, isProject.trans same.1, isMethod, same.2 ▸ isName⟩
  rcases existingPath_again read grows path with unchanged | ⟨id, found, served⟩
  · refine ⟨fun id found => servedOf found (isServed id (unchanged ▸ found)), fun missing => ?_⟩
    exact same.1 ▸ isTaken (unchanged ▸ missing)
  · refine ⟨fun other isOther => ?_, fun missing => ?_⟩
    · rw [found] at isOther
      exact Option.some.inj isOther ▸ servedOf found served
    · rw [found] at missing
      cases missing

/-- The calls before the walk. -/
theorem syncRepo_under {post : Bool → World → Prop}
    (handled : ∀ after : World, after.db = world.db →
      (syncFiles settings (readContext projectUUID projectName userID world.db) files).EnsuresUnder
        PortalCall.execute (Undisturbed files) (fun _ last => post true last) after) :
    (syncRepoFunctionsToDb settings projectUUID projectName userID).EnsuresUnder
      PortalCall.execute (Undisturbed files) post world := by
  intro circumstance noFault
  have isNew : ((PortalCall.repo projectName .new).execute circumstance world).1 = true :=
    decide_eq_true noFault
  have sameNew : ((PortalCall.repo projectName .new).execute circumstance world).2.db = world.db :=
    rfl
  revert isNew sameNew
  generalize (PortalCall.repo projectName .new).execute circumstance world = cloned
  obtain ⟨isNew, cloned⟩ := cloned
  rintro rfl sameNew
  apply under_query
  intro moment listed _ _ listedEq
  apply under_query
  intro moment joined _ _ joinedEq
  have same : joined.db = world.db := joinedEq.trans (listedEq.trans sameNew)
  rintro circumstance rfl
  have sameListed : listed.db = world.db := listedEq.trans sameNew
  have readEq : (⟨projectUUID, projectName, userID, FunctionQuery.ofProject projectUUID cloned.db,
      EndpointQuery.ofProject projectUUID listed.db⟩ : SyncContext) =
      readContext projectUUID projectName userID world.db := by
    rw [sameListed, show cloned.db = world.db from sameNew]
    rfl
  show EnsuresUnder _ _ _ (syncFiles settings ⟨projectUUID, projectName, userID,
    FunctionQuery.ofProject projectUUID cloned.db, EndpointQuery.ofProject projectUUID listed.db⟩
    circumstance.files >>= fun _ => done true) _
  rw [readEq]
  exact ensuresUnder_bind.mpr (handled _ same)

end SecondTime

/-- Synchronising the files of a repository, where database calls only fail on
uniqueness constraints, adds what is missing, and nothing the second time. -/
theorem syncRepoFunctionsToDb_synced (settings : Settings) {projectUUID : Uuid}
    (projectName : String) {userID : Bytes} {world : World}
    (project : (world.db.project? projectUUID).isSome) (user : (world.db.user? userID).isSome)
    (entries : List Entry) :
    (syncRepoFunctionsToDb settings projectUUID projectName userID).EnsuresUnder PortalCall.execute
      (Undisturbed (filesBelow "/functions" entries))
      (fun ok after => ok = true ∧
        Synced projectUUID projectName (filesBelow "/functions" entries) world.db after.db ∧
          (syncRepoFunctionsToDb settings projectUUID projectName userID).EnsuresUnder
            PortalCall.execute (Undisturbed (filesBelow "/functions" entries))
            (fun _ last => last.db = after.db) after)
      world := by
  apply syncRepo_under
  intro after same
  have knows : Knows (readContext projectUUID projectName userID world.db) after.db := by
    rw [same]
    exact knows_readContext project user
  refine (syncFiles_grows _ knows).imp fun _ last grows => ⟨rfl, ?_, ?_⟩
  · rw [same] at grows
    obtain ⟨added, rows, isOf, -⟩ := grows.functions
    refine ⟨⟨added, rows, isOf⟩, grows.endpoints, grows.others, fun path member isKnown => ?_⟩
    obtain ⟨isServed, isTaken⟩ := grows.done path member isKnown
    cases found : (readContext projectUUID projectName userID world.db).existingPath path with
    | none =>
        obtain ⟨row, stored, isProject, isName⟩ := isTaken found
        exact ⟨row, stored, isProject, .inr isName⟩
    | some id =>
        obtain ⟨row, isStored, isPath, -⟩ := mem_of_existingPath found
        obtain ⟨stored, isProject⟩ := mem_ofProject.mp isStored
        exact ⟨row, grows.functions_mem stored, isProject, .inl isPath⟩
  · rw [same] at grows
    apply syncRepo_under
    intro again sameAgain
    rw [← sameAgain]
    apply syncFiles_settled _
    intro path member isKnown
    rw [sameAgain]
    exact settled_of_grows rfl grows member isKnown

/-! ### A repository -/

/-- A function, and a file that is none. -/
def shopTree : List Entry :=
  [.directory "lua" [.file "total.lua"], .file "README.md"]

def shopWorld : World where
  db :=
    { Database.empty with
      users := .single ⟨[97], "a", "a"⟩
      projects := .single ⟨.copy [1], "shop", [97], 0⟩ }
  saved := none
  cluster := { functions := .empty, deployments := .empty, services := .empty, clock := 0 }
  clock := 0

def shopSettings : Settings where
  fqdn := "lite.example"
  vcsToken := "token"
  ingestorUrl := "https://lite.example"
  sessionExpiry := none
  toLower := Char.toLower

example : filesBelow "/functions" shopTree = ["functions/lua/total.lua", "functions/README.md"] := by
  decide +kernel

theorem shopTree_synced :
    (syncRepoFunctionsToDb shopSettings (.copy [1]) "shop" [97]).EnsuresUnder PortalCall.execute
      (Undisturbed (filesBelow "/functions" shopTree))
      (fun ok after => ok = true ∧
        Synced (.copy [1]) "shop" (filesBelow "/functions" shopTree) shopWorld.db after.db ∧
          (syncRepoFunctionsToDb shopSettings (.copy [1]) "shop" [97]).EnsuresUnder
            PortalCall.execute (Undisturbed (filesBelow "/functions" shopTree))
            (fun _ last => last.db = after.db) after)
      shopWorld :=
  syncRepoFunctionsToDb_synced shopSettings "shop" rfl rfl shopTree

end FunctionHandlers

end Portal

end Litefunctions
