import Litefunctions.FunctionFiles
import Litefunctions.LuaHttp

/-!
# Answers to synchronous calls

A runtime answers with the status 404 for a function that it does not have, and
with 500 for one that fails.  It tells the two apart by what was raised: the
Python runtime by the class of an exception, the others by a text.  The code of
a function raises what it likes, and the texts contain the name.
-/

namespace Litefunctions

/-! ### Attempts -/

/-- What a runtime takes something raised for: a missing function or a failure.
It may also be that no answer is sent. -/
inductive RaisedAs where
  | missing
  | failure
  | noAnswer
  deriving DecidableEq, Repr

/-- What the answer to a request depends on: the method, the name, whether the
runtime finds the function, and what is raised then. -/
structure Attempt where
  isHandled : Bool
  isNamed : Bool
  isFound : Bool
  raised : Option RaisedAs

/-- The status of the answer. -/
def RaisedAs.status : RaisedAs → Option Nat
  | missing => some 404
  | failure => some 500
  | noAnswer => none

namespace Attempt

def status (attempt : Attempt) : Option Nat :=
  if attempt.isHandled = false then some 405
  else if attempt.isNamed = false then some 400
  else if attempt.isFound = false then some 404
  else attempt.raised.elim (some 200) RaisedAs.status

/-- The request gets to a function. -/
def Reaches (attempt : Attempt) : Prop :=
  attempt.isHandled = true ∧ attempt.isNamed = true

/-- The load or the handle of the function fails. -/
def Fails (attempt : Attempt) : Prop :=
  attempt.Reaches ∧ attempt.isFound = true ∧ attempt.raised.isSome = true

/-- The status is 404 exactly for functions that are not deployed, and 500 for
deployed ones that fail. -/
def TellsDeployed (deployed fails : Prop) (status : Option Nat) : Prop :=
  (status = some 404 ↔ ¬ deployed) ∧ (deployed → fails → status = some 500)

/-- A deployed function is found and raises nothing that passes for a missing
one; a request for any other finds nothing, or something that does. -/
def Fits (deployed : Prop) (attempt : Attempt) : Prop :=
  (deployed → attempt.Reaches →
    attempt.isFound = true ∧ ∀ kind ∈ attempt.raised, kind = .failure) ∧
  (¬ deployed → attempt.Reaches ∧ (attempt.isFound = false ∨ attempt.raised = some .missing))

theorem tellsDeployed_iff (deployed : Prop) (attempt : Attempt) :
    TellsDeployed deployed attempt.Fails attempt.status ↔ attempt.Fits deployed := by
  obtain ⟨isHandled, isNamed, isFound, raised⟩ := attempt
  by_cases isDeployed : deployed
  · cases isHandled <;> cases isNamed <;> cases isFound <;> rcases raised with _ | _ | _ | _ <;>
      simp [TellsDeployed, Fits, Fails, Reaches, status, RaisedAs.status, isDeployed]
  · cases isHandled <;> cases isNamed <;> cases isFound <;> rcases raised with _ | _ | _ | _ <;>
      simp [TellsDeployed, Fits, Reaches, status, RaisedAs.status, isDeployed]

end Attempt

/-! ### Modules that stay loaded -/

/-- The code behind a name in one request: what loading it raises, whether it
exports `handle`, and what that gives up to its first output. -/
structure ModuleRun (Raised Output : Type) where
  loading : Option Raised
  exportsHandle : Bool
  handling : Except Raised Output

/-- What a module raises that is found; one that was loaded is not loaded again,
and `noHandle` is raised without a `handle`. -/
def ModuleRun.raised {Raised Output : Type} (run : ModuleRun Raised Output) (isLoaded : Bool)
    (noHandle : Raised) : Option Raised :=
  match if isLoaded then none else run.loading with
  | some raised => some raised
  | none =>
      if run.exportsHandle = false then some noHandle
      else
        match run.handling with
        | .error raised => some raised
        | .ok _ => none

/-- An answer: the first output of a function, or a text. -/
inductive SyncAnswer (Output : Type) where
  | output (chunk : Output)
  | text (status : Nat) (content : String)

def SyncAnswer.status {Output : Type} : SyncAnswer Output → Nat
  | output _ => 200
  | text status _ => status

/-- A request; `header` is `X-Litefunction-Name`. -/
structure SyncRequest (Raised Output : Type) where
  method : String
  header : Option String
  code : ModuleRun Raised Output

/-- The name in the header, or the configured one. -/
def SyncRequest.name {Raised Output : Type} (settingsName : String)
    (request : SyncRequest Raised Output) : String :=
  if request.header.getD "" = "" then settingsName else request.header.getD ""

/-- How a runtime that keeps its modules gets at them, and what it raises
itself. -/
structure ModuleSource (Raised : Type) where
  isFound : String → Bool
  missing : String → Raised
  noHandle : String → Raised

namespace ModuleSource

variable {Raised Output : Type} (source : ModuleSource Raised)

/-- Loading a module after others were loaded. -/
def load (loaded : List String) (name : String) (code : ModuleRun Raised Output) :
    Except Raised Unit × List String :=
  if name ∈ loaded then (.ok (), loaded)
  else if source.isFound name = false then (.error (source.missing name), loaded)
  else
    match code.loading with
    | some raised => (.error raised, loaded)
    | none => (.ok (), loaded.insert name)

/-- Invoking a module up to its first output. -/
def invoke (loaded : List String) (name : String) (code : ModuleRun Raised Output) :
    Except Raised Output × List String :=
  match source.load loaded name code with
  | (.error raised, loaded) => (.error raised, loaded)
  | (.ok _, loaded) =>
      (if code.exportsHandle = false then .error (source.noHandle name) else code.handling, loaded)

/-- The answer to a request for this name. -/
def answer (answerRaised : String → Raised → SyncAnswer Output) (loaded : List String)
    (name : String) (code : ModuleRun Raised Output) : SyncAnswer Output × List String :=
  if name = "" then (.text 400 "function name not provided", loaded)
  else
    match source.invoke loaded name code with
    | (.ok chunk, loaded) => (.output chunk, loaded)
    | (.error raised, loaded) => (answerRaised name raised, loaded)

/-- The modules that are loaded after some loads since a refresh, which
requests and messages make. -/
def loadedAfter (loads : List (String × ModuleRun Raised Output)) : List String :=
  loads.foldl (fun loaded (name, code) => (source.load loaded name code).2) []

/-- Every module that is loaded can be found. -/
def FindsLoaded (loaded : List String) : Prop :=
  ∀ name ∈ loaded, source.isFound name = true

variable {source}

theorem FindsLoaded.load {loaded : List String} (finds : source.FindsLoaded loaded)
    (name : String) (code : ModuleRun Raised Output) :
    source.FindsLoaded (source.load loaded name code).2 := by
  unfold ModuleSource.load
  split
  · exact finds
  · split
    · exact finds
    · next found =>
        cases code.loading with
        | some raised => exact finds
        | none =>
            intro other member
            rcases List.mem_insert_iff.mp member with rfl | earlier
            · exact eq_true_of_ne_false found
            · exact finds other earlier

theorem findsLoaded_loadedAfter (loads : List (String × ModuleRun Raised Output)) :
    source.FindsLoaded (source.loadedAfter loads) := by
  have run : ∀ loaded, source.FindsLoaded loaded → source.FindsLoaded (loads.foldl
      (fun loaded (name, code) => (source.load loaded name code).2) loaded) := by
    induction loads with
    | nil => exact fun _ finds => finds
    | cons load loads ih =>
        intro loaded finds
        exact ih _ (finds.load load.1 load.2)
  exact run [] fun _ member => absurd member List.not_mem_nil

/-- What an invocation gives once the module is found. -/
theorem invoke_of_isFound (loaded : List String) {name : String}
    (found : source.isFound name = true) (code : ModuleRun Raised Output) :
    (∀ raised ∈ code.raised (name ∈ loaded) (source.noHandle name),
        (source.invoke loaded name code).1 = .error raised) ∧
      (code.raised (name ∈ loaded) (source.noHandle name) = none →
        ∃ chunk, (source.invoke loaded name code).1 = .ok chunk) := by
  obtain ⟨loading, exportsHandle, handling⟩ := code
  by_cases isLoaded : name ∈ loaded
  · cases exportsHandle <;> cases handling <;>
      simp [invoke, load, ModuleRun.raised, isLoaded]
  · cases loading <;> cases exportsHandle <;> cases handling <;>
      simp [invoke, load, ModuleRun.raised, isLoaded, found]

theorem invoke_of_not_isFound {loaded : List String} {name : String}
    (finds : source.FindsLoaded loaded) (absent : source.isFound name = false)
    (code : ModuleRun Raised Output) :
    (source.invoke loaded name code).1 = .error (source.missing name) := by
  have notLoaded : name ∉ loaded := by
    intro member
    rw [finds name member] at absent
    cases absent
  simp [invoke, load, notLoaded, absent]

/-- The status of an answer depends on what was found and raised. -/
theorem answer_status {answerRaised : String → Raised → SyncAnswer Output}
    {takenFor : Raised → RaisedAs} {loaded : List String} {name : String}
    (agrees : ∀ raised, some (answerRaised name raised).status = (takenFor raised).status)
    (isMissing : takenFor (source.missing name) = .missing)
    (finds : source.FindsLoaded loaded) (code : ModuleRun Raised Output) :
    some (source.answer answerRaised loaded name code).1.status =
      Attempt.status ⟨true, name ≠ "", source.isFound name,
        (code.raised (name ∈ loaded) (source.noHandle name)).map takenFor⟩ := by
  by_cases noName : name = ""
  · simp [answer, noName, Attempt.status, SyncAnswer.status]
  have unfolded : (source.answer answerRaised loaded name code).1 =
      match (source.invoke loaded name code).1 with
      | .ok chunk => .output chunk
      | .error raised => answerRaised name raised := by
    rw [answer, if_neg noName]
    cases source.invoke loaded name code with
    | mk result later => cases result <;> rfl
  rw [unfolded]
  cases found : source.isFound name with
  | false =>
      rw [invoke_of_not_isFound finds found]
      simp [Attempt.status, noName, agrees, isMissing, RaisedAs.status]
  | true =>
      obtain ⟨raises, succeeds⟩ := invoke_of_isFound loaded found code
      cases result : code.raised (name ∈ loaded) (source.noHandle name) with
      | none =>
          obtain ⟨chunk, output⟩ := succeeds result
          rw [output]
          simp [Attempt.status, noName, SyncAnswer.status]
      | some raised =>
          rw [raises raised result]
          simp [Attempt.status, noName, agrees]

end ModuleSource

/-! ### Python -/

namespace PythonRuntime

variable {Output : Type}

/-- What Python code raises: an exception, one whose text cannot be made, or
something that is no `Exception`, such as `SystemExit`. -/
inductive PyRaised where
  | exception (error : PyError)
  | unprintable
  | beyond

/-- `load_module` and `invoke_module` with the files on this disk. -/
def modules (disk : FunctionDisk) : ModuleSource PyRaised where
  isFound name := (kindAt disk name).any EntryKind.isPresent
  missing name := .exception ⟨true, filePath name⟩
  noHandle name := .exception ⟨false, s!"module '{name}' does not export handle"⟩

/-- The `except` clauses of `handle_request`; what they do not catch, or raise
themselves, is answered by the server. -/
def answerRaised (name : String) : PyRaised → SyncAnswer Output
  | .exception ⟨true, _⟩ => .text 404 s!"function '{name}' not found"
  | .exception ⟨false, text⟩ => .text 500 text
  | .unprintable => .text 500 "Internal Server Error"
  | .beyond => .text 500 "Internal Server Error"

/-- The methods of the route. -/
def routeMethods : List String :=
  ["GET", "POST", "PUT", "PATCH", "DELETE", "OPTIONS", "HEAD"]

/-- `handle_request`. -/
def handleRequest (settingsName : String) (disk : FunctionDisk) (loaded : List String)
    (request : SyncRequest PyRaised Output) : SyncAnswer Output × List String :=
  if request.method ∉ routeMethods then (.text 405 "Method Not Allowed", loaded)
  else (modules disk).answer answerRaised loaded (request.name settingsName) request.code

/-- An exception of the class `FileNotFoundError` passes for a missing file. -/
def PyRaised.takenFor : PyRaised → RaisedAs
  | exception error => if error.isFileNotFound then .missing else .failure
  | unprintable => .failure
  | beyond => .failure

def attempt (settingsName : String) (disk : FunctionDisk) (loaded : List String)
    (request : SyncRequest PyRaised Output) : Attempt :=
  let name := request.name settingsName
  { isHandled := request.method ∈ routeMethods
    isNamed := name ≠ ""
    isFound := (modules disk).isFound name
    raised := (request.code.raised (name ∈ loaded) ((modules disk).noHandle name)).map
      PyRaised.takenFor }

theorem handleRequest_status (settingsName : String) {disk : FunctionDisk} {loaded : List String}
    (finds : (modules disk).FindsLoaded loaded) (request : SyncRequest PyRaised Output) :
    some (handleRequest settingsName disk loaded request).1.status =
      (attempt settingsName disk loaded request).status := by
  by_cases isHandled : request.method ∈ routeMethods
  · have agrees (raised : PyRaised) :
        some (answerRaised (request.name settingsName) raised : SyncAnswer Output).status =
          raised.takenFor.status := by
      rcases raised with ⟨isFileNotFound, text⟩ | _ | _
      · cases isFileNotFound <;> rfl
      · rfl
      · rfl
    rw [handleRequest, if_neg (not_not_intro isHandled),
      ModuleSource.answer_status agrees rfl finds, attempt, decide_eq_true isHandled]
  · rw [handleRequest, if_pos isHandled, attempt, decide_eq_false isHandled]
    rfl

end PythonRuntime

/-! ### TypeScript -/

namespace TsRuntime

variable {Output : Type}

/-- What is thrown, as `String` shows it, or `none` where `String` itself
throws. -/
abbrev ThrownText : Type := Option String

/-- `text.includes("not found")`. -/
def SaysNotFound (text : String) : Prop :=
  "not found".toList <:+: text.toList

instance decidableSaysNotFound (text : String) : Decidable (SaysNotFound text) :=
  inferInstanceAs (Decidable (_ <:+: text.toList))

/-- `loadModule` and `invokeModule` with the files on this disk. -/
def modules (root : Path) (disk : FunctionDisk) : ModuleSource ThrownText where
  isFound name := (kindAt root disk name).any EntryKind.isPresent
  missing name :=
    some ("Error: function '" ++ name ++ "' not found in /" ++ "/".intercalate root)
  noHandle name := some s!"Error: module '{name}' does not export handle(req)"

/-- The `catch` clause of `handleSyncRequest`; what it throws itself is answered
by the server. -/
def answerRaised (name : String) : ThrownText → SyncAnswer Output
  | some text =>
      if SaysNotFound text then .text 404 s!"function '{name}' not found" else .text 500 text
  | none => .text 500 "Internal Server Error"

/-- `handleSyncRequest`. -/
def handleSyncRequest (settingsName : String) (root : Path) (disk : FunctionDisk)
    (loaded : List String) (request : SyncRequest ThrownText Output) :
    SyncAnswer Output × List String :=
  (modules root disk).answer answerRaised loaded (request.name settingsName) request.code

/-- A text that says `not found` passes for a missing file. -/
def takenFor : ThrownText → RaisedAs
  | some text => if SaysNotFound text then .missing else .failure
  | none => .failure

def attempt (settingsName : String) (root : Path) (disk : FunctionDisk) (loaded : List String)
    (request : SyncRequest ThrownText Output) : Attempt :=
  let name := request.name settingsName
  { isHandled := true
    isNamed := name ≠ ""
    isFound := (modules root disk).isFound name
    raised := (request.code.raised (name ∈ loaded) ((modules root disk).noHandle name)).map
      takenFor }

theorem handleSyncRequest_status (settingsName : String) {root : Path} {disk : FunctionDisk}
    {loaded : List String} (finds : (modules root disk).FindsLoaded loaded)
    (request : SyncRequest ThrownText Output) :
    some (handleSyncRequest settingsName root disk loaded request).1.status =
      (attempt settingsName root disk loaded request).status := by
  have agrees (raised : ThrownText) :
      some (answerRaised (request.name settingsName) raised : SyncAnswer Output).status =
        (takenFor raised).status := by
    cases raised with
    | none => rfl
    | some text =>
        unfold answerRaised takenFor
        by_cases mentions : SaysNotFound text
        · simp [mentions, SyncAnswer.status, RaisedAs.status]
        · simp [mentions, SyncAnswer.status, RaisedAs.status]
  have isMissing : takenFor ((modules root disk).missing (request.name settingsName)) =
      .missing := by
    have cut : "' not found in /" = "' " ++ "not found" ++ " in /" := by decide +kernel
    apply if_pos
    refine ⟨("Error: function '" ++ request.name settingsName ++ "' ").toList,
      (" in /" ++ "/".intercalate root).toList, ?_⟩
    rw [cut]
    simp only [String.toList_append, List.append_assoc]
  exact ModuleSource.answer_status agrees isMissing finds request.code

end TsRuntime

/-! ### Lua -/

namespace LuaRuntime

open Lua

/-- What is raised, as `tostring` shows it, or `none` where `tostring` itself
raises; the error then ends the event loop. -/
abbrev RaisedText : Type := Option (List UInt8)

/-- `test -f` on the path of a name.  Where the shell expands the path, `tested`
tells the outcome. -/
def isFound (disk : FunctionDisk) (tested : List UInt8 → Bool) (name : List UInt8) : Bool :=
  (testedPath (scriptOf name)).elim (tested name) fun path =>
    (kindAt functionsPath disk path).any EntryKind.leadsToFile

/-- `invoke_lua`, or `none` where it raises. -/
def invokeLua (disk : FunctionDisk) (tested : List UInt8 → Bool) (name : List UInt8)
    (code : ModuleRun RaisedText (List UInt8)) : Option (Except (List UInt8) (List UInt8)) :=
  if isFound disk tested name = false then
    some (.error (bytes "function '" ++ name ++ bytes "' not found"))
  else
    match code.loading with
    | some raised =>
        raised.map fun text =>
          .error (bytes "failed loading lua module '" ++ name ++ bytes "': " ++ text)
    | none =>
        if code.exportsHandle = false then
          some (.error (bytes "module '" ++ name ++ bytes "' does not export handle"))
        else
          match code.handling with
          | .error raised => raised.map fun text => .error (bytes "lua handle error: " ++ text)
          | .ok output => some (.ok output)

/-- The answer to a request, or `none` where the event loop ends. -/
def answer (settingsName : List UInt8) (disk : FunctionDisk) (tested : List UInt8 → Bool)
    (code : ModuleRun RaisedText (List UInt8)) (req : HttpRequest) : Option HttpResponse :=
  match invocation settingsName req with
  | .error response => some response
  | .ok (name, _) =>
      (invokeLua disk tested name code).map fun result =>
        handleHttpRequest (fun _ _ => result) settingsName req

/-- The error of a function that is found, with what `tostring` shows of it. -/
def errorOf (name : List UInt8) (code : ModuleRun RaisedText (List UInt8)) : Option RaisedText :=
  match code.loading with
  | some raised =>
      some (raised.map (bytes "failed loading lua module '" ++ name ++ bytes "': " ++ ·))
  | none =>
      if code.exportsHandle = false then
        some (some (bytes "module '" ++ name ++ bytes "' does not export handle"))
      else
        match code.handling with
        | .error raised => some (raised.map (bytes "lua handle error: " ++ ·))
        | .ok _ => none

/-- A text that contains `not found` passes for a missing file. -/
def takenFor : RaisedText → RaisedAs
  | some text => if (findPlain (bytes "not found") text).isSome then .missing else .failure
  | none => .noAnswer

def attempt (settingsName : List UInt8) (disk : FunctionDisk) (tested : List UInt8 → Bool)
    (code : ModuleRun RaisedText (List UInt8)) (req : HttpRequest) : Attempt :=
  let name := functionName settingsName req.headers
  { isHandled := req.method ∈ handledMethods
    isNamed := name ≠ []
    isFound := isFound disk tested name
    raised := (errorOf name code).map takenFor }

/-- A text that ends in the needle contains it. -/
theorem findPlain_append_self (needle front : List UInt8) :
    (findPlain needle (front ++ needle)).isSome = true := by
  induction front with
  | nil =>
      cases needle with
      | nil => rfl
      | cons byte needle => simp [findPlain]
  | cons byte front ih =>
      rw [List.cons_append, findPlain]
      split
      · rfl
      · rw [Option.isSome_map]
        exact ih

theorem invokeLua_of_not_isFound {disk : FunctionDisk} {tested : List UInt8 → Bool}
    {name : List UInt8} (absent : isFound disk tested name = false)
    (code : ModuleRun RaisedText (List UInt8)) :
    invokeLua disk tested name code =
      some (.error (bytes "function '" ++ name ++ bytes "' not found")) :=
  if_pos absent

/-- What `invoke_lua` gives for a function that is found. -/
theorem invokeLua_of_isFound {disk : FunctionDisk} {tested : List UInt8 → Bool}
    {name : List UInt8} (found : isFound disk tested name = true)
    (code : ModuleRun RaisedText (List UInt8)) :
    (∀ raised ∈ errorOf name code, invokeLua disk tested name code = raised.map .error) ∧
      (errorOf name code = none → ∃ output, invokeLua disk tested name code = some (.ok output)) := by
  obtain ⟨loading, exportsHandle, handling⟩ := code
  rcases loading with _ | _ | text
  · cases exportsHandle
    · simp [invokeLua, errorOf, found]
    · rcases handling with (_ | text) | output <;> simp [invokeLua, errorOf, found]
  · simp [invokeLua, errorOf, found]
  · simp [invokeLua, errorOf, found]

theorem answer_status (settingsName : List UInt8) (disk : FunctionDisk)
    (tested : List UInt8 → Bool) (code : ModuleRun RaisedText (List UInt8)) (req : HttpRequest) :
    (answer settingsName disk tested code req).map HttpResponse.status =
      (attempt settingsName disk tested code req).status := by
  by_cases isHandled : req.method ∈ handledMethods
  · by_cases noName : functionName settingsName req.headers = []
    · simp [answer, invocation, attempt, Attempt.status, isHandled, noName]
    have invoked : invocation settingsName req =
        .ok (functionName settingsName req.headers, req.body) := by
      simp [invocation, isHandled, noName]
    have failed (err : List UInt8) :
        some (handleHttpRequest (fun _ _ => .error err) settingsName req).status =
          (takenFor (some err)).status := by
      rw [handleHttpRequest, invoked, takenFor]
      by_cases mentions : (findPlain (bytes "not found") err).isSome = true
      · simp [mentions, RaisedAs.status]
      · simp [mentions, RaisedAs.status]
    have answered : answer settingsName disk tested code req =
        (invokeLua disk tested (functionName settingsName req.headers) code).map fun result =>
          handleHttpRequest (fun _ _ => result) settingsName req := by
      rw [answer, invoked]
    rw [answered]
    cases found : isFound disk tested (functionName settingsName req.headers) with
    | false =>
        have ending : bytes "' not found" = bytes "' " ++ bytes "not found" := by decide +kernel
        have isMissing : (takenFor (some (bytes "function '" ++
            functionName settingsName req.headers ++ bytes "' not found"))) = .missing := by
          rw [ending, ← List.append_assoc]
          exact if_pos (findPlain_append_self _ _)
        rw [invokeLua_of_not_isFound found, Option.map_some, Option.map_some, failed, isMissing]
        simp [attempt, Attempt.status, isHandled, noName, found, RaisedAs.status]
    | true =>
        obtain ⟨raises, succeeds⟩ := invokeLua_of_isFound found code
        cases result : errorOf (functionName settingsName req.headers) code with
        | none =>
            obtain ⟨output, called⟩ := succeeds result
            rw [called]
            simp [handleHttpRequest, invoked, attempt, Attempt.status, isHandled, noName, found,
              result]
        | some raised =>
            rw [raises raised result]
            cases raised with
            | none =>
                simp [attempt, Attempt.status, isHandled, noName, found, result, takenFor,
                  RaisedAs.status]
            | some text =>
                simp [failed, attempt, Attempt.status, isHandled, noName, found, result]
  · simp [answer, invocation, attempt, Attempt.status, isHandled]

end LuaRuntime

/-! ### The three runtimes -/

/-- The status tells the deployed functions and their failures exactly for the
requests that fit. -/
theorem status_tellsDeployed_iff {Output : Type} :
    (∀ (settingsName : String) (disk : PythonRuntime.FunctionDisk)
        (loads : List (String × ModuleRun PythonRuntime.PyRaised Output))
        (request : SyncRequest PythonRuntime.PyRaised Output),
      let loaded := (PythonRuntime.modules disk).loadedAfter loads
      let attempt := PythonRuntime.attempt settingsName disk loaded request
      let deployed := request.name settingsName ∈ PythonRuntime.listFunctions disk.toDirectory
      Attempt.TellsDeployed deployed attempt.Fails
          (some (PythonRuntime.handleRequest settingsName disk loaded request).1.status) ↔
        attempt.Fits deployed) ∧
      (∀ (settingsName : String) (root : TsRuntime.Path) (disk : TsRuntime.FunctionDisk)
        (loads : List (String × ModuleRun TsRuntime.ThrownText Output))
        (request : SyncRequest TsRuntime.ThrownText Output),
      let loaded := (TsRuntime.modules root disk).loadedAfter loads
      let attempt := TsRuntime.attempt settingsName root disk loaded request
      let deployed := request.name settingsName ∈ TsRuntime.listFunctions disk.toDirectory
      Attempt.TellsDeployed deployed attempt.Fails
          (some (TsRuntime.handleSyncRequest settingsName root disk loaded request).1.status) ↔
        attempt.Fits deployed) ∧
      ∀ (settingsName : List UInt8) (disk : LuaRuntime.FunctionDisk)
        (tested : List UInt8 → Bool)
        (code : ModuleRun LuaRuntime.RaisedText (List UInt8)) (req : LuaRuntime.HttpRequest),
      let attempt := LuaRuntime.attempt settingsName disk tested code req
      let deployed :=
        LuaRuntime.functionName settingsName req.headers ∈ LuaRuntime.listFunctions disk.toDirectory
      Attempt.TellsDeployed deployed attempt.Fails
          ((LuaRuntime.answer settingsName disk tested code req).map
            LuaRuntime.HttpResponse.status) ↔
        attempt.Fits deployed := by
  refine ⟨?_, ?_, ?_⟩
  · intro settingsName disk loads request
    dsimp only
    rw [PythonRuntime.handleRequest_status settingsName
      (ModuleSource.findsLoaded_loadedAfter loads) request]
    exact Attempt.tellsDeployed_iff _ _
  · intro settingsName root disk loads request
    dsimp only
    rw [TsRuntime.handleSyncRequest_status settingsName
      (ModuleSource.findsLoaded_loadedAfter loads) request]
    exact Attempt.tellsDeployed_iff _ _
  · intro settingsName disk tested code req
    dsimp only
    rw [LuaRuntime.answer_status]
    exact Attempt.tellsDeployed_iff _ _

/-- A directory with one file. -/
def Disk.withEntry {Name Path : Type} [DecidableEq Name] {IsEntryName : Name → Prop} (name : Name)
    (isEntryName : IsEntryName name) : Disk Name Path IsEntryName where
  entries := AList.singleton name .file
  wellNamed other member := by
    have same : other = name := List.mem_singleton.mp member
    exact same ▸ isEntryName
  elsewhere _ := none

def helloPy : PythonRuntime.FunctionDisk :=
  .withEntry "hello.py" (by decide +kernel)

def helloTs : TsRuntime.FunctionDisk :=
  .withEntry "hello.ts" (by decide +kernel)

def helloLua : LuaRuntime.FunctionDisk :=
  .withEntry (Lua.bytes "hello.lua") (by decide +kernel)

/-- A deployed function whose `handle` opens a missing file, or says that
something was not found, is answered as one that is missing. -/
theorem failing_hello_notFound :
    ("hello" ∈ PythonRuntime.listFunctions helloPy.toDirectory ∧
      (PythonRuntime.handleRequest "" helloPy []
        (⟨"GET", some "hello", ⟨none, true,
          .error (.exception ⟨true, "No such file or directory: 'prices.json'"⟩)⟩⟩ :
            SyncRequest PythonRuntime.PyRaised Unit)).1.status = 404) ∧
      ("hello" ∈ TsRuntime.listFunctions helloTs.toDirectory ∧
        (TsRuntime.handleSyncRequest "" ["app", "pkg", "functions"] helloTs []
          (⟨"GET", some "hello", ⟨none, true, .error (some "Error: order 7 not found")⟩⟩ :
            SyncRequest TsRuntime.ThrownText Unit)).1.status = 404) ∧
      Lua.bytes "hello" ∈ LuaRuntime.listFunctions helloLua.toDirectory ∧
        (LuaRuntime.answer [] helloLua (fun _ => false)
          ⟨none, true, .error (some (Lua.bytes "order 7 not found"))⟩
          ⟨Lua.bytes "GET", Lua.bytes "/",
            [(Lua.bytes "x-litefunction-name", Lua.bytes "hello")], []⟩).map
              LuaRuntime.HttpResponse.status = some 404 := by
  refine ⟨⟨?_, by decide +kernel⟩, ⟨?_, by decide +kernel⟩, by decide +kernel, by decide +kernel⟩
  · rw [PythonRuntime.mem_listFunctions]
    decide +kernel
  · rw [TsRuntime.mem_listFunctions]
    decide +kernel

end Litefunctions
