import Litefunctions.PortalRoutes
import Litefunctions.RequestedUpdates
import Litefunctions.TouchedProjects

/-!
# The selected project of a request

Five handlers find a function or an endpoint by the id in the path and the
repository by the project of the cookie.  None of them compares the two, so a
request stays within its selected project exactly when the row that its path
names, and what is deleted with it, belongs to that project.
-/

namespace Litefunctions

namespace Portal

open Program

/-- The projects of the rows that the id in the path names. -/
def ProjectRoute.named (db : Database) : ProjectRoute → List Uuid
  | getFunction fnID =>
      (HexText.decode fnID).toList.flatMap fun bytes => db.functionProject (.copy bytes)
  | updateFunction fnID _ =>
      (HexText.decode fnID).toList.flatMap fun bytes =>
        if bytes.length = 16 then db.functionProject (.copy bytes) else []
  | deleteFunction fnID =>
      (HexText.decode fnID).toList.flatMap fun bytes =>
        if (db.function? (.copy bytes)).isSome then
          db.functionProject (.copy bytes) ++ db.cascadedProjects (.copy bytes)
        else []
  | getEndpoint epID =>
      (HexText.decode epID).toList.flatMap fun bytes => db.endpointProject (.copy bytes)
  | updateEndpoint epID (some _) =>
      (HexText.decode epID).toList.flatMap fun bytes => db.endpointProject (.copy bytes)
  | _ => []

/-- The requests whose path names a row. -/
inductive RowRoute where
  | getFunction (fnID : String)
  | updateFunction (fnID : String) (body : FunctionHandlers.UpdateBody)
  | deleteFunction (fnID : String)
  | getEndpoint (epID : String)
  | updateEndpoint (epID : String) (body : Option EndpointHandlers.UpdateEndpointRequest)

namespace RowRoute

def route : RowRoute → ProjectRoute
  | getFunction fnID => .getFunction fnID
  | updateFunction fnID body => .updateFunction fnID body
  | deleteFunction fnID => .deleteFunction fnID
  | getEndpoint epID => .getEndpoint epID
  | updateEndpoint epID body => .updateEndpoint epID body

def handle (c : Context) : RowRoute → Replies
  | getFunction fnID => FunctionHandlers.getFunction c fnID
  | updateFunction fnID body => FunctionHandlers.updateFunction c fnID body
  | deleteFunction fnID => FunctionHandlers.deleteFunction c fnID
  | getEndpoint epID => EndpointHandlers.getEndpoint epID
  | updateEndpoint epID body => EndpointHandlers.updateEndpoint epID body

theorem handle_route (settings : Settings) (cookies : Cookies) (c : Context) (request : RowRoute) :
    request.route.handle settings cookies c = request.handle c := by
  cases request <;> rfl

end RowRoute

/-- The call reads and changes rows of this project only, and works on no other
repository. -/
def KeepsTo (project : ProjectContext) : PortalCall → World → Prop
  | .query statement, before =>
      ∀ projectID ∈ statement.touches before.db, projectID = project.projectUUID
  | .repo name _, _ => name = project.projectName
  | .vcs name _, _ => name = project.projectName
  | .createFunctionCRD req, _ => req.project = project.projectName
  | _, _ => True

theorem functionProject_of_function? {db : Database} {id : Uuid} {row : FunctionRow}
    (found : db.function? id = some row) : row.projectID ∈ db.functionProject id := by
  obtain ⟨member, isID⟩ := function?_some found
  exact List.mem_map.mpr ⟨row, List.mem_filter.mpr ⟨member, decide_eq_true isID⟩, rfl⟩

theorem functionProject_eq_nil {db : Database} {id : Uuid} (missing : db.function? id = none) :
    db.functionProject id = [] := by
  have none : db.functions.rows.filter (·.id = id) = [] := by
    rw [List.filter_eq_nil_iff]
    intro row member
    exact List.find?_eq_none.mp missing row member
  rw [Database.functionProject, none]
  rfl

section Handlers

variable {project : ProjectContext} {c : Context} {world : World}

theorem mustGetProject_of_isProject (isProject : c.project = some project)
    (handler : ProjectContext → Replies) : c.mustGetProject handler = handler project := by
  simp only [Context.mustGetProject, isProject]

/-- The calls of the program keep to the project in every world. -/
abbrev AlwaysKeepsTo {Result : Type} (project : ProjectContext) (program : PortalProgram Result) :
    Prop :=
  program.Makes fun call => ∀ before, KeepsTo project call before

/-- Only the first call depends on what the database holds. -/
theorem keepsTo_call {Result : Type} {request : PortalCall}
    {next : request.Response → PortalProgram Result} (keeps : KeepsTo project request world)
    (rest : ∀ response, AlwaysKeepsTo project (next response)) :
    Ensures (KeepsTo project) (fun _ _ => True) (call request next) world := by
  apply And.intro keeps
  intro circumstance
  have calls : Ensures (fun call _ => ∀ before, KeepsTo project call before) (fun _ _ => True)
      (next (request.execute circumstance world).1) (request.execute circumstance world).2 :=
    ((rest _).along []).ensures_calls
  exact calls.imp (fun call before keeps => keeps before) fun _ _ => id

/-- The rows that the path names are touched, whatever else is asked of the
calls. -/
theorem RowRoute.named_of_ensures (request : RowRoute) {isAllowed : Uuid → Prop}
    {allowed : PortalCall → World → Prop} {post : List Reply → World → Prop}
    (queries : ∀ statement before, allowed (.query statement) before →
      ∀ projectID ∈ statement.touches before.db, isAllowed projectID)
    (ensures : Ensures allowed post (request.handle c) world) :
    ∀ projectID ∈ request.route.named world.db, isAllowed projectID := by
  cases request with
  | getFunction fnID =>
      simp only [handle, FunctionHandlers.getFunction] at ensures
      cases decoded : HexText.decode fnID with
      | none => simp [route, ProjectRoute.named, decoded]
      | some bytes =>
          rw [decoded] at ensures
          simpa [route, ProjectRoute.named, decoded, Query.touches, FunctionQuery.touches]
            using queries _ _ ensures.1
  | updateFunction fnID body =>
      simp only [handle, FunctionHandlers.updateFunction] at ensures
      cases decoded : HexText.decode fnID with
      | none => simp [route, ProjectRoute.named, decoded]
      | some bytes =>
          simp only [decoded] at ensures
          split at ensures
          · next short => simp [route, ProjectRoute.named, decoded, short]
          · next long =>
              simpa [route, ProjectRoute.named, decoded, not_not.mp long, Query.touches,
                FunctionQuery.touches] using queries _ _ ensures.1
  | deleteFunction fnID =>
      simp only [handle, FunctionHandlers.deleteFunction] at ensures
      cases decoded : HexText.decode fnID with
      | none => simp [route, ProjectRoute.named, decoded]
      | some bytes =>
          rw [decoded] at ensures
          cases found : world.db.function? (.copy bytes) with
          | none => simp [route, ProjectRoute.named, decoded, found]
          | some f =>
              have deletes := reading_answered rfl ensures
              simp only [Query.execute, FunctionQuery.execute, Option.bind_some, found,
                oneRow] at deletes
              simpa [route, ProjectRoute.named, decoded, found, Query.touches,
                FunctionQuery.touches] using queries _ _ deletes.1
  | getEndpoint epID =>
      simp only [handle, EndpointHandlers.getEndpoint] at ensures
      cases decoded : HexText.decode epID with
      | none => simp [route, ProjectRoute.named, decoded]
      | some bytes =>
          rw [decoded] at ensures
          simpa [route, ProjectRoute.named, decoded, Query.touches, EndpointQuery.touches]
            using queries _ _ ensures.1
  | updateEndpoint epID body =>
      simp only [handle, EndpointHandlers.updateEndpoint] at ensures
      cases body with
      | none => simp [route, ProjectRoute.named]
      | some req =>
          cases decoded : HexText.decode epID with
          | none => simp [route, ProjectRoute.named, decoded]
          | some bytes =>
              rw [decoded] at ensures
              simpa [route, ProjectRoute.named, decoded, Query.touches, EndpointQuery.touches]
                using queries _ _ ensures.1

theorem getFunction_keepsTo (isProject : c.project = some project) (fnID : String)
    (own : ∀ projectID ∈ (ProjectRoute.getFunction fnID).named world.db,
      projectID = project.projectUUID) :
    Ensures (KeepsTo project) (fun _ _ => True) (FunctionHandlers.getFunction c fnID) world := by
  unfold FunctionHandlers.getFunction
  cases decoded : HexText.decode fnID with
  | none => trivial
  | some bytes =>
      simp only [ProjectRoute.named, decoded, Option.toList_some, List.flatMap_singleton] at own
      refine keepsTo_call ?_ fun found => ?_
      · simpa [KeepsTo, Query.touches, FunctionQuery.touches] using own
      · cases found with
        | error err => trivial
        | ok f =>
            show AlwaysKeepsTo project (c.mustGetProject _)
            rw [mustGetProject_of_isProject isProject]
            apply And.intro (fun _ => rfl)
            intro data
            rcases data with (_ | _) | _ <;> trivial

theorem updateFunction_keepsTo (isProject : c.project = some project) (fnID : String)
    (body : FunctionHandlers.UpdateBody)
    (own : ∀ projectID ∈ (ProjectRoute.updateFunction fnID body).named world.db,
      projectID = project.projectUUID) :
    Ensures (KeepsTo project) (fun _ _ => True) (FunctionHandlers.updateFunction c fnID body)
      world := by
  have null {statement : FunctionQuery} (none : ∀ db, statement.touches db = []) (before : World) :
      KeepsTo project (.query (.function statement)) before := by
    intro projectID touched
    rw [Query.touches, none] at touched
    cases touched
  unfold FunctionHandlers.updateFunction
  cases decoded : HexText.decode fnID with
  | none => trivial
  | some bytes =>
      simp only [ProjectRoute.named, decoded, Option.toList_some, List.flatMap_singleton] at own
      dsimp only
      split
      · trivial
      · next long =>
          rw [if_pos (not_not.mp long)] at own
          refine keepsTo_call ?_ fun found => ?_
          · simpa [KeepsTo, Query.touches, FunctionQuery.touches] using own
          · cases found with
            | error err => trivial
            | ok f =>
                show AlwaysKeepsTo project (c.mustGetProject _)
                rw [mustGetProject_of_isProject isProject]
                rcases body with (_ | content) | (_ | req)
                · trivial
                · refine (FunctionHandlers.saveFile_makes (fun _ _ => rfl) _ _).bind
                    fun saved => ?_
                  cases saved <;> trivial
                · trivial
                · exact FunctionHandlers.updateFromJson_makes (fun _ _ => rfl)
                    (fun _ => null fun _ => rfl) (fun _ => null fun _ => rfl) _ _

theorem restoreFunction_keepsTo {f : FunctionRow} (own : f.projectID = project.projectUUID)
    (text : String) :
    AlwaysKeepsTo project (FunctionHandlers.restoreFunction f text) := by
  refine ⟨fun before projectID touched => ?_, fun _ => trivial⟩
  rw [List.mem_singleton.mp touched, own]

theorem deleteFunction_keepsTo (isProject : c.project = some project) (fnID : String)
    (own : ∀ projectID ∈ (ProjectRoute.deleteFunction fnID).named world.db,
      projectID = project.projectUUID) :
    Ensures (KeepsTo project) (fun _ _ => True) (FunctionHandlers.deleteFunction c fnID) world := by
  unfold FunctionHandlers.deleteFunction
  cases decoded : HexText.decode fnID with
  | none => trivial
  | some bytes =>
      simp only [ProjectRoute.named, decoded, Option.toList_some, List.flatMap_singleton] at own
      cases found : world.db.function? (.copy bytes) with
      | none =>
          refine ensures_reading rfl ?_ (fun after _ => trivial) fun moment after _ => ?_
          · simp [KeepsTo, Query.touches, FunctionQuery.touches, functionProject_eq_nil found]
          · simp only [Query.execute, FunctionQuery.execute, Option.bind_some, found, oneRow]
            trivial
      | some f =>
          simp only [found, Option.isSome_some, if_true] at own
          have ownRow : f.projectID = project.projectUUID :=
            own _ (List.mem_append_left _ (functionProject_of_function? found))
          refine ensures_reading rfl ?_ (fun after _ => trivial) fun moment after same => ?_
          · intro projectID touched
            simp only [Query.touches, FunctionQuery.touches, Option.toList_some,
              List.flatMap_singleton] at touched
            exact own projectID (List.mem_append_left _ touched)
          · simp only [Query.execute, FunctionQuery.execute, Option.bind_some, found, oneRow]
            refine keepsTo_call ?_ fun deleted => ?_
            · simpa [KeepsTo, Query.touches, FunctionQuery.touches, same] using own
            · cases deleted with
              | error err => trivial
              | ok _ =>
                  show AlwaysKeepsTo project (c.mustGetProject _)
                  rw [mustGetProject_of_isProject isProject]
                  apply And.intro (fun _ => rfl)
                  intro removed
                  cases removed with
                  | false => exact restoreFunction_keepsTo ownRow _
                  | true =>
                      apply And.intro (fun _ => rfl)
                      intro committed
                      cases committed with
                      | error err => exact restoreFunction_keepsTo ownRow _
                      | ok _ =>
                          apply And.intro (fun _ => rfl)
                          intro pushed
                          cases pushed with
                          | false => exact restoreFunction_keepsTo ownRow _
                          | true => trivial

theorem getEndpoint_keepsTo (epID : String)
    (own : ∀ projectID ∈ (ProjectRoute.getEndpoint epID).named world.db,
      projectID = project.projectUUID) :
    Ensures (KeepsTo project) (fun _ _ => True) (EndpointHandlers.getEndpoint epID) world := by
  unfold EndpointHandlers.getEndpoint
  cases decoded : HexText.decode epID with
  | none => trivial
  | some bytes =>
      simp only [ProjectRoute.named, decoded, Option.toList_some, List.flatMap_singleton] at own
      refine keepsTo_call own fun found => ?_
      cases found <;> trivial

theorem updateEndpoint_keepsTo (epID : String)
    (body : Option EndpointHandlers.UpdateEndpointRequest)
    (own : ∀ projectID ∈ (ProjectRoute.updateEndpoint epID body).named world.db,
      projectID = project.projectUUID) :
    Ensures (KeepsTo project) (fun _ _ => True) (EndpointHandlers.updateEndpoint epID body)
      world := by
  unfold EndpointHandlers.updateEndpoint
  cases decoded : HexText.decode epID with
  | none => trivial
  | some bytes =>
      cases body with
      | none => trivial
      | some req =>
          simp only [ProjectRoute.named, decoded, Option.toList_some, List.flatMap_singleton] at own
          refine keepsTo_call own fun updated => ?_
          cases updated <;> trivial

end Handlers

/-- A request whose path names a row works on its selected project only exactly
when the row, and what is deleted with it, belongs to that project. -/
theorem RowRoute.keepsTo_iff (userID : Bytes) (userName : String) (project : ProjectContext)
    (request : RowRoute) (world : World) :
    Ensures (KeepsTo project) (fun _ _ => True)
        (request.handle ⟨userID, userName, some project⟩) world ↔
      ∀ projectID ∈ request.route.named world.db, projectID = project.projectUUID := by
  constructor
  · exact request.named_of_ensures fun _ _ keeps => keeps
  · intro own
    cases request with
    | getFunction fnID => exact getFunction_keepsTo rfl fnID own
    | updateFunction fnID body => exact updateFunction_keepsTo rfl fnID body own
    | deleteFunction fnID => exact deleteFunction_keepsTo rfl fnID own
    | getEndpoint epID => exact getEndpoint_keepsTo epID own
    | updateEndpoint epID body => exact updateEndpoint_keepsTo epID body own

/-- The function of the example belongs to another project than the selected
one. -/
def deletionOfOther : RowRoute :=
  .deleteFunction "02000000000000000000000000000000"

theorem deletionOfOther_touches :
    ¬ Ensures (KeepsTo ⟨.copy [3], "other"⟩) (fun _ _ => True)
        (deletionOfOther.handle ⟨[97], "a", some ⟨.copy [3], "other"⟩⟩)
        FunctionHandlers.totalWorld := by
  intro ensures
  have same : Uuid.copy [1] = Uuid.copy [3] := ensures.1 _ List.mem_cons_self
  revert same
  decide

end Portal

end Litefunctions
