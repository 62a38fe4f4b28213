import Litefunctions.PathTexts
import Litefunctions.PortalFunctions
import Litefunctions.RouterPaths

/-!
# Endpoints on the test page

The portal names the endpoint of a function after its project and itself.  Its
test page puts `lambda` before that name, and `lambda/ws` for a web socket,
unless the name looks as if it had them already.  The ingestor splits the
result into project and function again.
-/

namespace Litefunctions

namespace Portal

open SeparatedText PathText Ingestor

/-- The name of the endpoint that `CreateFunction` and `SyncRepoFunctionsToDb`
give to a function. -/
def epPath (projectName fnName : String) : String :=
  s!"/{projectName}/{fnName}"

/-- The path that `runEndpointTest` requests. -/
def testPath (endpointName : String) : String :=
  s!"/lambda{endpointName}"

/-- `path.startsWith(start)`. -/
def startsWith (path start : String) : Bool :=
  start.toList.isPrefixOf path.toList

def toWsPath (path : String) : String :=
  if path = "" then ""
  else if startsWith path "/lambda/ws/" then path
  else if startsWith path "/lambda/" then
    "/lambda/ws/" ++ String.ofList (removeFirst "/lambda/".toList path.toList)
  else if startsWith path "/" then "/lambda/ws" ++ path
  else "/lambda/ws/" ++ path

/-- A single segment of a path. -/
abbrev Segment := { text : String // text ≠ "" ∧ '/' ∉ text.toList }

section Names

variable (project name : Segment)

theorem ensureEndpoint_eq (s : FunctionHandlers.SyncContext) (fnID : Uuid) (fnName : String) :
    FunctionHandlers.ensureEndpoint s fnID fnName =
      if s.hasGet fnID then return
      else do
        let _ ← endpointQuery (.createEndpoint s.projectUUID (epPath s.projectName fnName) "GET"
          "public" fnID)
        return :=
  rfl

theorem epPath_toList :
    (epPath project name).toList = '/' :: (project.val.toList ++ '/' :: name.val.toList) := by
  simp [epPath, toString]

/-- A first segment before the end of a prefix is the first segment. -/
theorem startsWith_epPath_iff (first rest : List Char) (slashless : '/' ∉ first) :
    ('/' :: (first ++ '/' :: rest)).isPrefixOf (epPath project name).toList = true ↔
      first = project.val.toList ∧ rest <+: name.val.toList := by
  rw [epPath_toList, List.isPrefixOf_iff_prefix]
  constructor
  · rintro ⟨tail, whole⟩
    have cut : first ++ '/' :: (rest ++ tail) = project.val.toList ++ '/' :: name.val.toList := by
      simpa using whole
    rcases append_cons_eq_iff.mp cut with ⟨isProject, isName⟩ | ⟨middle, longer, -⟩ |
        ⟨middle, longer, -⟩
    · exact ⟨isProject, tail, isName⟩
    · exact absurd (by simp [longer]) slashless
    · exact absurd (by simp [longer]) project.property.2
  · rintro ⟨rfl, tail, isName⟩
    exact ⟨tail, by simp [← isName]⟩

/-- No name of an endpoint starts with the prefix of web sockets. -/
theorem startsWith_ws : startsWith (epPath project name) "/lambda/ws/" = false := by
  apply eq_false_of_ne_true
  intro starts
  obtain ⟨-, tail, isName⟩ := (startsWith_epPath_iff project name "lambda".toList "ws/".toList
    (by decide)).mp starts
  apply name.property.2
  rw [← isName]
  exact List.mem_append_left tail (by decide)

theorem startsWith_lambda_iff :
    startsWith (epPath project name) "/lambda/" = true ↔ project.val = "lambda" := by
  apply (startsWith_epPath_iff project name "lambda".toList [] (by decide)).trans
  rw [String.toList_inj]
  constructor
  · intro starts
    exact starts.1.symm
  · intro isLambda
    exact ⟨isLambda.symm, List.nil_prefix⟩

theorem testPath_epPath :
    testPath (epPath project name) = "/lambda/" ++ project.val ++ "/" ++ name.val := by
  rw [← String.toList_inj]
  simp [testPath, epPath, toString]

theorem toWsPath_epPath :
    toWsPath (epPath project name) =
      if project.val = "lambda" then "/lambda/" ++ "ws" ++ "/" ++ name.val
      else "/lambda/" ++ "ws" ++ "/" ++ project.val ++ "/" ++ name.val := by
  have shape := epPath_toList project name
  have nonempty : epPath project name ≠ "" := by
    intro isEmpty
    rw [isEmpty] at shape
    cases shape
  have starts : startsWith (epPath project name) "/" = true := by
    rw [startsWith, shape]
    rfl
  rw [toWsPath, if_neg nonempty, startsWith_ws, if_neg Bool.false_ne_true]
  by_cases isLambda : project.val = "lambda"
  · have behind : removeFirst "/lambda/".toList (epPath project name).toList = name.val.toList := by
      rw [shape, isLambda]
      exact removeFirst_append "/lambda/".toList name.val.toList (by decide)
    rw [if_pos ((startsWith_lambda_iff project name).mpr isLambda), if_pos isLambda, behind,
      String.ofList_toList]
    rfl
  · rw [if_neg (mt (startsWith_lambda_iff project name).mp isLambda), if_pos starts,
      if_neg isLambda, ← String.toList_inj]
    simp [shape]

/-! ### What the ingestor reads -/

theorem parsePath_testPath :
    parsePath (testPath (epPath project name)) =
      if project.val = "sse" ∨ project.val = "ws" then ("", "") else (project.val, name.val) := by
  rw [testPath_epPath]
  exact parsePath_two project.property.2 name.property.1 name.property.2

theorem parsePath_toWsPath :
    parsePath (toWsPath (epPath project name)) =
      if project.val = "lambda" then ("", "") else (project.val, name.val) := by
  rw [toWsPath_epPath]
  split
  · rw [parsePath_two (by decide) name.property.1 name.property.2, if_pos (.inr rfl)]
  · exact parsePath_three (.inr rfl) project.property.2 name.property.1 name.property.2

/-- The ingestor finds project and function on both paths of the test page
exactly when the project is not named like a prefix. -/
theorem parsePath_testPath_toWsPath_iff :
    (parsePath (testPath (epPath project name)) = (project.val, name.val) ∧
        parsePath (toWsPath (epPath project name)) = (project.val, name.val)) ↔
      project.val ≠ "sse" ∧ project.val ≠ "ws" ∧ project.val ≠ "lambda" := by
  have lost : ("", "") ≠ (project.val, name.val) := by
    intro same
    exact project.property.1 (congrArg Prod.fst same).symm
  rw [parsePath_testPath, parsePath_toWsPath, ← and_assoc, ← not_or]
  apply and_congr
  · rw [ite_eq_right_iff]
    exact imp_iff_not lost
  · rw [ite_eq_right_iff]
    exact imp_iff_not lost

/-- A function of the project `ws` is not found by a test of its endpoint. -/
theorem testPath_loses_project :
    ¬ ∀ project name : Segment,
      parsePath (testPath (epPath project name)) = (project.val, name.val) ∧
        parsePath (toWsPath (epPath project name)) = (project.val, name.val) := by
  intro always
  have found := (always ⟨"ws", by decide, by decide⟩ ⟨"total", by decide, by decide⟩).1
  rw [parsePath_testPath, if_pos (.inr rfl)] at found
  exact absurd (congrArg Prod.fst found) (by decide)

end Names

end Portal

end Litefunctions
