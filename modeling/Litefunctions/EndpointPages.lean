import Litefunctions.CoherentRequests
import Litefunctions.PagedFunctions
import Litefunctions.PortalEndpoints

/-!
# Pages of endpoints

`ListEndpoints` orders by name and method.  Within a project no two endpoints
have both in common, so the order leaves no tie and whoever asks for one page
after the other sees every endpoint once.  The statement joins each endpoint
with its function, of which there is always one.
-/

namespace Litefunctions

/-- Pages of one size that follow each other from the first on are the
beginning. -/
theorem flatMap_pageOf {Row : Type} (size : Nat) (rows : List Row) (count : Nat) :
    (List.range count).flatMap (fun index => pageOf (index * size) size rows) =
      rows.take (count * size) := by
  induction count with
  | zero => simp
  | succ count ih =>
      rw [List.range_succ, List.flatMap_append, ih, List.flatMap_singleton, Nat.succ_mul,
        List.take_add]
      rfl

namespace Portal

open Program

/-! ### The order of endpoints -/

/-- `ORDER BY name ASC, method ASC`. -/
def EndpointView.ListedBefore (first second : EndpointView) : Prop :=
  first.endpoint.name < second.endpoint.name ∨
    (first.endpoint.name = second.endpoint.name ∧ first.endpoint.method ≤ second.endpoint.method)

instance : DecidableRel EndpointView.ListedBefore :=
  fun _ _ => inferInstanceAs (Decidable (_ ∨ _))

instance : IsTrans EndpointView EndpointView.ListedBefore := by
  constructor
  rintro first second third (less | ⟨same, earlier⟩) (lessNext | ⟨sameNext, earlierNext⟩)
  · exact .inl (String.lt_trans less lessNext)
  · exact .inl (sameNext ▸ less)
  · exact .inl (same ▸ lessNext)
  · exact .inr ⟨same.trans sameNext, String.le_trans earlier earlierNext⟩

instance : Std.Total EndpointView.ListedBefore := by
  constructor
  intro first second
  by_cases less : first.endpoint.name < second.endpoint.name
  · exact .inl (.inl less)
  · by_cases more : second.endpoint.name < first.endpoint.name
    · exact .inr (.inl more)
    · have same : first.endpoint.name = second.endpoint.name :=
        String.le_antisymm (String.not_lt.mp more) (String.not_lt.mp less)
      rcases String.le_total first.endpoint.method second.endpoint.method with early | late
      · exact .inl (.inr ⟨same, early⟩)
      · exact .inr (.inr ⟨same.symm, late⟩)

theorem EndpointView.same_of_listedBefore {first second : EndpointView}
    (early : first.ListedBefore second) (late : second.ListedBefore first) :
    first.endpoint.name = second.endpoint.name ∧ first.endpoint.method = second.endpoint.method := by
  rcases early with less | ⟨sameName, earlier⟩
  · rcases late with more | ⟨sameName, -⟩
    · exact absurd (String.lt_trans less more) (String.lt_irrefl _)
    · exact absurd (sameName ▸ less) (String.lt_irrefl _)
  · rcases late with more | ⟨-, later⟩
    · exact absurd (sameName ▸ more) (String.lt_irrefl _)
    · exact ⟨sameName, String.le_antisymm earlier later⟩

/-! ### Answers of the database -/

/-- An endpoint with its function. -/
def joined (db : Database) (row : Endpoint) : Option EndpointView :=
  (db.function? row.functionID).map fun function =>
    ⟨row, function.name, function.language, function.isAsync⟩

/-- What the statement selects. -/
def selectedEndpoints (db : Database) (projectUUID : Uuid) (search : String) : List EndpointView :=
  ((db.endpoints.rows.filter (·.projectID = projectUUID)).filterMap (joined db)).filter
    fun view => searchMatches search view.endpoint.name

/-- The endpoints of a project whose names match the text. -/
def matchingEndpoints (db : Database) (projectUUID : Uuid) (search : String) : List Endpoint :=
  (db.endpoints.rows.filter (·.projectID = projectUUID)).filter
    fun row => searchMatches search row.name

/-- An answer to `ListEndpointsSearch`: the page of some order that agrees with
`ORDER BY`.  A text with a zero byte is rejected. -/
def CanAnswerEndpoints (db : Database) (projectUUID : Uuid) (search : String) (limit offset : Int)
    (response : Except DbError (List EndpointView)) : Prop :=
  if Char.ofNat 0 ∈ search.toList then response = .error .invalidText
  else ∃ ordered, Arranges EndpointView.ListedBefore (selectedEndpoints db projectUUID search) ordered ∧
    response = page limit offset ordered

/-- The listing of endpoints was answered from this database. -/
def EndpointsAnsweredFrom (db : Database)
    (history : List (Answered PortalCall PortalCall.Response)) : Prop :=
  ∀ projectUUID search limit offset response,
    (⟨.query (.endpoint (.listEndpointsSearch projectUUID search limit offset)), response⟩ :
      Answered PortalCall PortalCall.Response) ∈ history →
    CanAnswerEndpoints db projectUUID search limit offset response

/-- The answer of the stored model is one of them. -/
theorem canAnswerEndpoints_execute (moment : Moment) (db : Database) (projectUUID : Uuid)
    {search : String} (noZero : Char.ofNat 0 ∉ search.toList) (limit offset : Int) :
    CanAnswerEndpoints db projectUUID search limit offset
      (EndpointQuery.execute moment (.listEndpointsSearch projectUUID search limit offset)
        db).1 := by
  rw [CanAnswerEndpoints, if_neg noZero]
  refine ⟨(EndpointQuery.ofProject projectUUID db).filter
    fun view => searchMatches search view.endpoint.name, ?_, rfl⟩
  constructor
  · apply List.Perm.filter
    exact List.perm_insertionSort EndpointView.ListedBefore _
  · apply List.Pairwise.filter
    exact List.pairwise_insertionSort EndpointView.ListedBefore _

section Selected

variable {db : Database} {projectUUID : Uuid} {search : String} {row other : Endpoint}
variable {view : EndpointView}

theorem endpoint_of_joined (isJoined : joined db row = some view) : view.endpoint = row := by
  obtain ⟨function, -, rfl⟩ := Option.map_eq_some_iff.mp isJoined
  rfl

theorem function_of_joined (isJoined : joined db row = some view) :
    ∃ function ∈ db.functions.rows, function.id = row.functionID ∧
      view.functionName = function.name := by
  obtain ⟨function, found, rfl⟩ := Option.map_eq_some_iff.mp isJoined
  obtain ⟨member, isID⟩ := Table.find?_some found
  exact ⟨function, member, of_decide_eq_true isID, rfl⟩

theorem exists_joined (coherent : Coherent db) (member : row ∈ db.endpoints.rows) :
    ∃ view, joined db row = some view := by
  obtain ⟨-, -, -, function, isFunction, isID, -⟩ := (coherent.endpoints row member).1
  have found : (db.function? row.functionID).isSome :=
    List.find?_isSome.mpr ⟨function, isFunction, decide_eq_true isID⟩
  obtain ⟨first, isFirst⟩ := Option.isSome_iff_exists.mp found
  exact ⟨_, by rw [joined, isFirst]; rfl⟩

/-- The join loses no endpoint. -/
theorem endpoints_of_filterMap (rows : List Endpoint)
    (each : ∀ row ∈ rows, ∃ view, joined db row = some view) :
    (rows.filterMap (joined db)).map (·.endpoint) = rows := by
  induction rows with
  | nil => rfl
  | cons row rows ih =>
      obtain ⟨⟨view, isJoined⟩, rest⟩ := List.forall_mem_cons.mp each
      rw [List.filterMap_cons_some isJoined, List.map_cons, endpoint_of_joined isJoined, ih rest]

theorem endpoints_selected (coherent : Coherent db) :
    (selectedEndpoints db projectUUID search).map (·.endpoint) =
      matchingEndpoints db projectUUID search := by
  have all := endpoints_of_filterMap (db.endpoints.rows.filter (·.projectID = projectUUID))
    fun row member => exists_joined coherent (List.mem_of_mem_filter member)
  unfold selectedEndpoints matchingEndpoints
  rw [← all, List.filter_map, all]
  rfl

theorem eq_of_name_method (member : row ∈ db.endpoints.rows) (otherMember : other ∈ db.endpoints.rows)
    (sameProject : row.projectID = other.projectID) (sameName : row.name = other.name)
    (sameMethod : row.method = other.method) : row = other := by
  refine Table.eq_of_conflicts (fun first second => ?_) member otherMember ?_
  · simp only [Endpoint.conflicts, eq_comm]
  · simp [Endpoint.conflicts, sameProject, sameName, sameMethod]

theorem mem_selectedEndpoints (member : view ∈ selectedEndpoints db projectUUID search) :
    view.endpoint ∈ db.endpoints.rows ∧ view.endpoint.projectID = projectUUID ∧
      joined db view.endpoint = some view := by
  obtain ⟨row, isRow, isJoined⟩ := List.mem_filterMap.mp (List.mem_of_mem_filter member)
  obtain rfl := endpoint_of_joined isJoined
  obtain ⟨stored, inProject⟩ := List.mem_filter.mp isRow
  exact ⟨stored, of_decide_eq_true inProject, isJoined⟩

theorem selectedEndpoints_noTie :
    ¬ HasTie EndpointView.ListedBefore (selectedEndpoints db projectUUID search) := by
  rintro ⟨first, member, second, otherMember, different, early, late⟩
  apply different
  obtain ⟨sameName, sameMethod⟩ := EndpointView.same_of_listedBefore early late
  obtain ⟨stored, inProject, isJoined⟩ := mem_selectedEndpoints member
  obtain ⟨otherStored, otherInProject, otherIsJoined⟩ := mem_selectedEndpoints otherMember
  have same := eq_of_name_method stored otherStored (inProject.trans otherInProject.symm) sameName
    sameMethod
  exact Option.some.inj (isJoined.symm.trans (same ▸ otherIsJoined))

end Selected

/-! ### Replies -/

namespace EndpointHandlers

/-- An endpoint in the reply. -/
def listedJson (view : EndpointView) : Json :=
  .obj
    [("ID", .str view.endpoint.id.hex), ("Name", .str view.endpoint.name),
      ("Method", .str view.endpoint.method), ("Scope", .str view.endpoint.scope),
      ("FunctionName", .str view.functionName)]

/-- The replies to a request for a page, asked of this database. -/
def RepliesTo (db : Database) (c : Context) (search : String) (paging : Paging)
    (replies : List Reply) : Prop :=
  ∃ history, EndpointsAnsweredFrom db history ∧
    (listEndpoints c (some search) (some paging.limit) (some paging.offset)).Reaches history
      (.done replies)

section Runs

variable {db : Database} {c : Context} {project : ProjectContext} {search : String}
variable {paging : Paging} {replies : List Reply}

/-- What is shown is a page of the one order that there is. -/
theorem repliesTo_page (isProject : c.project = some project)
    (noZero : Char.ofNat 0 ∉ search.toList) (sizeSmall : paging.size < 2 ^ 31)
    (startSmall : paging.start < 2 ^ 31) (answer : RepliesTo db c search paging replies) :
    replies = [.json 200 (.arr ((pageOf paging.start paging.size
      ((selectedEndpoints db project.projectUUID search).insertionSort
        EndpointView.ListedBefore)).map listedJson))] := by
  obtain ⟨history, fromDb, reaches⟩ := answer
  unfold listEndpoints Context.mustGetProject at reaches
  rw [isProject] at reaches
  dsimp only at reaches
  rw [perform_bind] at reaches
  obtain ⟨response, later, rfl, answered⟩ := call_reaches_iff.mp reaches
  have canAnswer := fromDb _ _ _ _ _ List.mem_cons_self
  dsimp only [Option.getD_some] at canAnswer
  rw [Paging.int32_limit sizeSmall, Paging.int32_offset startSmall, CanAnswerEndpoints,
    if_neg noZero] at canAnswer
  obtain ⟨ordered, arranges, rfl⟩ := canAnswer
  rw [page_natCast] at answered
  rw [← arranges.unique arranges_insertionSort selectedEndpoints_noTie]
  exact (done_reaches_iff.mp answered).2.symm

end Runs

/-- A function with two endpoints. -/
def twoEndpoints : World where
  db :=
    { Database.empty with
      users := .single ⟨[97], "a", "a"⟩
      projects := .single ⟨.copy [1], "shop", [97], 0⟩
      functions := .single FunctionHandlers.totalRow
      endpoints := ⟨[⟨.copy [3], .copy [1], "/shop/total", "POST", "public", .copy [2], 0⟩,
        ⟨.copy [4], .copy [1], "/shop/total", "GET", "authn", .copy [2], 0⟩], by decide⟩ }
  saved := none
  cluster := { functions := .empty, deployments := .empty, services := .empty, clock := 0 }
  clock := 0

theorem twoEndpoints_settled : Settled twoEndpoints := by
  have user : twoEndpoints.db.HasUser [97] := ⟨_, List.mem_cons_self, rfl⟩
  have project : twoEndpoints.db.HasProject (.copy [1]) := ⟨_, List.mem_cons_self, rfl⟩
  have named : twoEndpoints.db.NamesFunction (.copy [1]) "/shop/total" (.copy [2]) :=
    ⟨_, List.mem_cons_self, rfl, _, List.mem_cons_self, rfl, rfl, .inl (by decide +kernel)⟩
  refine ⟨⟨?_, ?_, nofun, nofun, ?_, ?_, nofun, nofun⟩, rfl⟩
  · intro row member
    obtain rfl : row = ⟨[97], "a", "a"⟩ := List.mem_singleton.mp member
    decide +kernel
  · intro row member
    obtain rfl : row = ⟨.copy [1], "shop", [97], 0⟩ := List.mem_singleton.mp member
    exact user
  · intro row member
    obtain rfl : row = FunctionHandlers.totalRow := List.mem_singleton.mp member
    exact ⟨project, user, by decide +kernel⟩
  · refine List.forall_mem_cons.mpr ⟨⟨named, rfl⟩, fun row member => ?_⟩
    obtain rfl := List.mem_singleton.mp member
    exact ⟨named, rfl⟩

end EndpointHandlers

end Portal

end Litefunctions
