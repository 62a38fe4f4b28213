import Litefunctions.PortalFunctions
import Litefunctions.PortalSpecs

/-!
# Updates that a request asks for

A JSON body of `UpdateFunction` may ask for another mode and another path.  The
handler reads the row of the id, but its updates name no id, so they select no
row; their errors are dropped, and the request is answered as a success.  The
answer is right exactly when the row already is as the body asks.
-/

namespace Litefunctions

namespace Portal

open Program

/-- One of the replies has this status. -/
def Answers (code : Nat) (replies : List Reply) : Prop :=
  ∃ body, .json code body ∈ replies

theorem not_answers_other {code status : Nat} (other : status ≠ code) (body : Json) :
    ¬ Answers code [.json status body] := by
  rintro ⟨found, member⟩
  injection List.mem_singleton.mp member with same
  exact other same.symm

theorem function?_some {db : Database} {id : Uuid} {row : FunctionRow}
    (found : db.function? id = some row) : row ∈ db.functions.rows ∧ row.id = id := by
  have ⟨member, isID⟩ := Table.find?_some found
  exact ⟨member, of_decide_eq_true isID⟩

/-- No other row has the id of a row. -/
theorem eq_of_function? {db : Database} {id : Uuid} {row other : FunctionRow}
    (found : db.function? id = some row) (member : other ∈ db.functions.rows)
    (sameID : other.id = id) : other = row := by
  obtain ⟨rowMember, rowID⟩ := function?_some found
  refine Table.eq_of_conflicts (fun first second => ?_) member rowMember ?_
  · simp only [FunctionRow.conflicts, eq_comm]
  · simp [FunctionRow.conflicts, sameID, rowID]

namespace FunctionHandlers

/-- The row as the request asks for it. -/
def UpdateFunctionRequest.applied (req : UpdateFunctionRequest) (row : FunctionRow) : FunctionRow :=
  { row with
    isAsync := req.isAsync.getD row.isAsync
    path := if req.path = "" then row.path else req.path }

/-- The row of the id is as the request asks, and everything else is as it
was. -/
structure CarriedOut (req : UpdateFunctionRequest) (id : Uuid) (row : FunctionRow)
    (before after : Database) : Prop where
  found : after.function? id = some (req.applied row)
  rows : after.functions.rows =
    before.functions.rows.map fun other => if other.id = id then req.applied other else other
  others : { after with functions := before.functions } = before

section Unchanged

variable {req : UpdateFunctionRequest} {id : Uuid} {row : FunctionRow} {db : Database}

/-- Doing nothing carries out a request that asks for what is stored. -/
theorem carriedOut_self_iff (stored : db.function? id = some row) :
    CarriedOut req id row db db ↔ req.applied row = row := by
  constructor
  · intro carriedOut
    exact (Option.some.inj (stored.symm.trans carriedOut.found)).symm
  · intro asStored
    refine ⟨by rw [asStored, stored], ?_, rfl⟩
    have kept : ∀ other ∈ db.functions.rows,
        (if other.id = id then req.applied other else other) = other := by
      intro other member
      split
      · next sameID => rw [eq_of_function? stored member sameID, asStored]
      · rfl
    exact ((List.map_congr_left kept).trans (List.map_id _)).symm

end Unchanged

/-! ### What the handler calls -/

section Calls

variable {quiet : PortalCall → Prop}

theorem mkdirs_makes {project : String} (repo : ∀ call, quiet (.repo project call))
    (directories : List String) : (mkdirs project directories).Makes quiet := by
  induction directories with
  | nil => trivial
  | cons directory directories ih => exact ⟨repo (.mkdirAll directory), fun _ => ih⟩

theorem commitAndPush_makes {project : String} (repo : ∀ call, quiet (.repo project call))
    (path : String) (tolerated : CommitError → Bool) :
    (commitAndPush project path tolerated).Makes quiet := by
  unfold commitAndPush
  extract_lets pushed
  have makes : pushed.Makes quiet := by
    apply And.intro (repo .push)
    intro isPushed
    cases isPushed <;> trivial
  apply And.intro (repo (.commit path))
  intro committed
  cases committed with
  | error err =>
      show (if tolerated err = true then pushed else _).Makes quiet
      split
      · exact makes
      · trivial
  | ok _ => exact makes

theorem saveFile_makes {project : String} (repo : ∀ call, quiet (.repo project call))
    (path : String) (content : Bytes) : (saveFile project path content).Makes quiet := by
  apply And.intro (repo (.create path content))
  intro isCreated
  cases isCreated with
  | false => trivial
  | true => exact commitAndPush_makes repo path _

/-- The statements that set a column have no id. -/
theorem updateFromJson_makes {project : String} (repo : ∀ call, quiet (.repo project call))
    (setIsAsync : ∀ isAsync, quiet (.query (.function (.updateFunctionIsAsync none isAsync))))
    (setPath : ∀ path, quiet (.query (.function (.updateFunctionPath none path))))
    (path : String) (req : UpdateFunctionRequest) :
    (updateFromJson project path req).Makes quiet := by
  unfold updateFromJson
  extract_lets saveAndMove
  have later : ∀ isAsync, (saveAndMove isAsync).Makes quiet := by
    intro isAsync
    simp only [saveAndMove]
    split
    · show (if req.path = "" then _ else _ : Replies).Makes quiet
      split
      · trivial
      · apply And.intro (setPath req.path)
        intro moved
        cases moved <;> trivial
    · apply (saveFile_makes repo path _).bind
      intro saved
      cases saved with
      | some replies => trivial
      | none =>
          show (if req.path = "" then _ else _ : Replies).Makes quiet
          split
          · trivial
          · apply And.intro (setPath req.path)
            intro moved
            cases moved <;> trivial
  cases req.isAsync with
  | none => exact later _
  | some isAsync =>
      apply And.intro (setIsAsync isAsync)
      intro updated
      cases updated with
      | error err => exact later _
      | ok upd => exact later _

theorem updateFunction_makes {c : Context}
    (repo : ∀ project, c.project = some project → ∀ call, quiet (.repo project.projectName call))
    (read : ∀ id, quiet (.query (.function (.getFunctionByID id))))
    (setIsAsync : ∀ isAsync, quiet (.query (.function (.updateFunctionIsAsync none isAsync))))
    (setPath : ∀ path, quiet (.query (.function (.updateFunctionPath none path))))
    (fnHex : String) (body : UpdateBody) : (updateFunction c fnHex body).Makes quiet := by
  unfold updateFunction
  cases HexText.decode fnHex with
  | none => trivial
  | some fnID =>
      simp only
      split
      · trivial
      · apply And.intro (read _)
        intro found
        cases found with
        | error err => trivial
        | ok f =>
            cases isProject : c.project with
            | none =>
                simp only [Context.mustGetProject, isProject]
                trivial
            | some project =>
                simp only [Context.mustGetProject, isProject]
                rcases body with (_ | content) | (_ | req)
                · trivial
                · apply (saveFile_makes (repo project isProject) _ _).bind
                  intro saved
                  cases saved <;> trivial
                · trivial
                · exact updateFromJson_makes (repo project isProject) setIsAsync setPath _ _

end Calls

/-! ### When the answer is right -/

/-- Where nothing fails, an update of a stored function is answered with
status 200. -/
theorem updateFunction_answers {c : Context} {project : ProjectContext}
    (isProject : c.project = some project) {fnHex : String} {bytes : Bytes}
    (decoded : HexText.decode fnHex = some bytes) (long : bytes.length = 16) {world : World}
    {row : FunctionRow} (stored : world.db.function? (.copy bytes) = some row)
    (req : UpdateFunctionRequest) :
    Answers 200 ((updateFunction c fnHex (.json (some req))).runAlone PortalCall.execute
      (fun _ => {}) world).1 := by
  have found : oneRow (world.db.function? (.copy bytes)) = .ok row := by rw [stored]; rfl
  cases wanted : req.isAsync <;> by_cases noCode : req.code = "" <;>
    by_cases noPath : req.path = "" <;>
    simp [updateFunction, updateFromJson, saveFile, commitAndPush, decoded, long, isProject,
      runAlone, PortalCall.execute, PortalCall.repoAnswer, Query.execute, FunctionQuery.execute,
      FunctionQuery.change, found, Context.mustGetProject, wanted, noCode, noPath, Answers]

/-- For a stored function and a JSON body, an answer with status 200 means that
the request was carried out exactly when it asks for what is stored. -/
theorem updateFunction_carriedOut_iff (c : Context) {fnHex : String} {bytes : Bytes}
    (decoded : HexText.decode fnHex = some bytes) (long : bytes.length = 16) {world : World}
    {row : FunctionRow} (stored : world.db.function? (.copy bytes) = some row)
    (req : UpdateFunctionRequest) :
    Ensures (fun _ _ => True)
        (fun replies after => Answers 200 replies →
          CarriedOut req (.copy bytes) row world.db after.db)
        (updateFunction c fnHex (.json (some req))) world ↔
      (c.project.isSome → req.applied row = row) := by
  have same : Ensures (fun _ _ => True) (fun _ after => after.db = world.db)
      (updateFunction c fnHex (.json (some req))) world := by
    refine ensures_of_quiet ((updateFunction_makes ?_ ?_ ?_ ?_ fnHex _).along [])
      (fun request => id) fun _ _ _ _ => trivial
    · exact fun _ _ _ => rfl
    · exact fun _ => rfl
    · exact fun _ => rfl
    · exact fun _ => rfl
  have no200 (noProject : c.project = none) : Ensures (fun _ _ => True)
      (fun replies _ => ¬ Answers 200 replies) (updateFunction c fnHex (.json (some req))) world := by
    simp only [updateFunction, decoded, long]
    apply ensures_keeping rfl trivial
    intro found after _
    cases found with
    | error err =>
        show ¬ Answers 200 [.error 404 "function not found"]
        simp [Answers]
    | ok row =>
        simp only [Context.mustGetProject, noProject]
        show ¬ Answers 200 [.panicked]
        simp [Answers]
  constructor
  · intro ensures isSome
    obtain ⟨project, isProject⟩ := Option.isSome_iff_exists.mp isSome
    have carriedOut := ensures.ends (fun _ => {})
      (updateFunction_answers isProject decoded long stored req)
    rw [same.ends (fun _ => {})] at carriedOut
    exact (carriedOut_self_iff stored).mp carriedOut
  · intro asStored
    cases isProject : c.project with
    | none =>
        apply Ensures.imp (no200 isProject) (fun _ _ => id)
        intro replies after no200 answers
        exact absurd answers no200
    | some project =>
        apply same.imp (fun _ _ => id)
        intro replies after same _
        rw [same]
        exact (carriedOut_self_iff stored).mpr (asStored (by simp [isProject]))

/-! ### An update that is lost -/

/-- A body that only asks for the asynchronous mode. -/
def makeAsync : UpdateFunctionRequest where
  path := ""
  code := ""
  isAsync := some true

/-- The row of the example. -/
def totalRow : FunctionRow where
  id := .copy [2]
  projectID := .copy [1]
  name := "total"
  language := "lua"
  path := "functions/lua/total.lua"
  isAsync := false
  createdBy := [97]
  createdAt := 0

def totalWorld : World where
  db := { Database.empty with functions := .single totalRow }
  saved := none
  cluster := { functions := .empty, deployments := .empty, services := .empty, clock := 0 }
  clock := 0

def shopContext : Context where
  userID := [97]
  userName := "a"
  project := some ⟨.copy [1], "shop"⟩

theorem makeAsync_lost :
    ¬ Ensures (fun _ _ => True)
        (fun replies after => Answers 200 replies →
          CarriedOut makeAsync (.copy [2]) totalRow totalWorld.db after.db)
        (updateFunction shopContext "02000000000000000000000000000000" (.json (some makeAsync)))
        totalWorld := by
  intro ensures
  have ended := ensures.ends (fun _ => {}) ⟨_, List.mem_singleton_self _⟩
  have lost : totalRow.isAsync = true :=
    congrArg FunctionRow.isAsync (Option.some.inj ended.found)
  cases lost

theorem updateFunction_asStored :
    Ensures (fun _ _ => True)
        (fun replies after => Answers 200 replies →
          CarriedOut { makeAsync with isAsync := some false } (.copy [2]) totalRow totalWorld.db
            after.db)
        (updateFunction shopContext "02000000000000000000000000000000"
          (.json (some { makeAsync with isAsync := some false }))) totalWorld ↔
      (shopContext.project.isSome →
        UpdateFunctionRequest.applied { makeAsync with isAsync := some false } totalRow =
          totalRow) :=
  updateFunction_carriedOut_iff shopContext
    (rfl : HexText.decode _ = some (2 :: List.replicate 15 0)) rfl rfl _

end FunctionHandlers

end Portal

end Litefunctions
