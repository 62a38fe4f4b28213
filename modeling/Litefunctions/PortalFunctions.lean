import Litefunctions.PortalRequests

/-!
# Function handlers of the portal

A function has a row in the database, a file in the repository of its project
and a Function object at the operator.  The id of a function in a path names
its row without its project.
-/

namespace Litefunctions

namespace Portal

open Program

namespace FunctionHandlers

structure CreateFunctionRequest where
  name : String
  language : String
  code : String
  path : String
  isAsync : Bool
  deriving DecidableEq, Repr

structure UpdateFunctionRequest where
  path : String
  code : String
  isAsync : Option Bool
  deriving DecidableEq, Repr

/-- The body of an update: a file, `none` where reading it fails, or a JSON
object, `none` where it is malformed. -/
inductive UpdateBody where
  | plain (body : Option Bytes)
  | json (req : Option UpdateFunctionRequest)

/-- The directories of a path, each with the ones before it. -/
def directories (cur : String) : List String → List String
  | part :: next :: parts => (cur ++ "/" ++ part) :: directories (cur ++ "/" ++ part) (next :: parts)
  | _ => []

def mkdirs (project : String) : List String → PortalProgram Unit
  | [] => return
  | directory :: directories => do
      onRepo project (.mkdirAll directory)
      mkdirs project directories

/-- Commit a file and push. -/
def commitAndPush (project path : String) (tolerated : CommitError → Bool) :
    PortalProgram (Option (List Reply)) := do
  let pushed : PortalProgram (Option (List Reply)) := do
    if ← onRepo project .push then
      return none
    else
      return some [.error 500 "push error"]
  match ← onRepo project (.commit path) with
  | .error err => if tolerated err then pushed else return some [.error 500 "commit error"]
  | .ok _ => pushed

/-- The content of a new function. -/
def codeContent (req : CreateFunctionRequest) : String :=
  if req.code ≠ "" then req.code
  else if req.path ≠ "" then req.path
  else "// TODO: implement function\n"

def createFunction (settings : Settings) (c : Context) (body : Option CreateFunctionRequest) :
    Replies :=
  c.mustGetProject fun project => do
    match body with
    | none => return [.error 400 "invalid request"]
    | some req =>
        if Language.langExt req.language = "" then
          return [.error 400 "invalid language"]
        else
          match ← functionQuery (.listFunctionsForProject project.projectUUID) with
          | .error _ => return [.error 500 "database error"]
          | .ok fns =>
              if fns.any (·.name = req.name) then
                return [.error 409 "function with this name already exists"]
              else
                let path :=
                  s!"functions/{req.language}/{req.name}{Language.langExt req.language}"
                mkdirs project.projectName (directories "" (path.splitOn "/"))
                if !(← onRepo project.projectName
                    (.create path (codeContent req).toUTF8.data.toList)) then
                  return [.error 500 "file create error"]
                else
                  match ← commitAndPush project.projectName path
                      (fun err => containsText err.text "clean working tree") with
                  | some replies => return replies
                  | none =>
                      match ← functionQuery (.createFunction project.projectUUID req.name
                          req.language path req.isAsync c.userID) with
                      | .error _ => return [.error 500 "database error"]
                      | .ok fn =>
                          -- failures of the endpoint and of the operator are only logged
                          let _ ← endpointQuery (.createEndpoint project.projectUUID
                            s!"/{project.projectName}/{req.name}" "GET" "public" fn.id)
                          let _ ← createFunctionCRD
                            { namespace_ := "default"
                              name := req.name
                              project := project.projectName
                              language := req.language
                              gitCreds := settings.vcsToken
                              isAsync := req.isAsync }
                          return [.json 201 (.obj
                            [("id", .str fn.id.hex), ("name", .str fn.name),
                              ("language", .str fn.language), ("path", .str fn.path),
                              ("is_async", .bool fn.isAsync)])]

/-- `endpointByFn[fnID]`: the first endpoint of a function. -/
def endpointByFn (eps : List EndpointView) (fnID : Uuid) : String :=
  match eps.find? (·.endpoint.functionID = fnID) with
  | none => ""
  | some ep => ep.endpoint.id.hex

/-- The endpoints of a project; an error counts as none. -/
def listEndpointsForProject (projectUUID : Uuid) : PortalProgram (List EndpointView) := do
  match ← endpointQuery (.listEndpointsForProject projectUUID) with
  | .error _ => return []
  | .ok eps => return eps

def listFunctions (c : Context) (search limit offset : Option String) : Replies :=
  c.mustGetProject fun project => do
    match ← functionQuery (.listFunctionsSearchPaged project.projectUUID (search.getD "")
        (int32 (atoi (limit.getD "100")).1) (int32 (atoi (offset.getD "0")).1)) with
    | .error _ => return [.error 500 "database error"]
    | .ok fns =>
        let eps ← listEndpointsForProject project.projectUUID
        return [.json 200 (.arr (fns.map fun f => .obj
          [("id", .str f.id.hex), ("name", .str f.name), ("language", .str f.language),
            ("path", .str f.path), ("is_async", .bool f.isAsync),
            ("endpoint_id", .str (endpointByFn eps f.id))]))]

def getFunction (c : Context) (fnHex : String) : Replies := do
  match HexText.decode fnHex with
  | none => return [.error 400 "invalid function id"]
  | some fnID =>
      match ← functionQuery (.getFunctionByID (some (.copy fnID))) with
      | .error _ => return [.error 404 "not found"]
      | .ok f => c.mustGetProject fun project => do
          match ← onRepo project.projectName (.read f.path) with
          | .error .notFound => return [.msg 404 "function not found in repo"]
          | .error .unreadable => return [.msg 404 "error reading file data"]
          | .ok data =>
              return [.json 200 (.obj
                [("id", .str f.id.hex), ("name", .str f.name), ("language", .str f.language),
                  ("path", .str f.path), ("is_async", .bool f.isAsync),
                  ("content", .text data)])]

/-- Write the file of a function, commit it and push. -/
def saveFile (project path : String) (content : Bytes) :
    PortalProgram (Option (List Reply)) := do
  if ← onRepo project (.create path content) then
    commitAndPush project path (·.isEmptyCommit)
  else
    return some [.error 500 "write error"]

/-- The updates of the database leave the id null. -/
def updateFromJson (project path : String) (req : UpdateFunctionRequest) : Replies := do
  let isAsync ← match req.isAsync with
    | none => pure []
    | some isAsync => do
        match ← functionQuery (.updateFunctionIsAsync none isAsync) with
        | .error _ => pure []
        | .ok upd => pure [("is_async", Json.bool upd.isAsync)]
  let saved ← if req.code = "" then pure (.ok []) else do
    match ← saveFile project path req.code.toUTF8.data.toList with
    | some replies => pure (Except.error replies)
    | none => pure (.ok [("status", Json.str "saved")])
  match saved with
  | .error replies => return replies
  | .ok status => do
      let newPath ← if req.path = "" then pure [] else do
        match ← functionQuery (.updateFunctionPath none req.path) with
        | .error _ => pure []
        | .ok upd => pure [("path", Json.str upd.path)]
      return [.json 200 (.obj (isAsync ++ status ++ newPath))]

def updateFunction (c : Context) (fnHex : String) (body : UpdateBody) : Replies := do
  match HexText.decode fnHex with
  | none => return [.error 400 "invalid function id"]
  | some fnID =>
      if fnID.length ≠ 16 then
        return [.error 400 "invalid function id"]
      else
        match ← functionQuery (.getFunctionByID (some (.copy fnID))) with
        | .error _ => return [.error 404 "function not found"]
        | .ok f => c.mustGetProject fun project => do
            match body with
            | .plain none => return [.error 400 "invalid body"]
            | .plain (some content) =>
                match ← saveFile project.projectName f.path content with
                | some replies => return replies
                | none => return [.json 200 (.obj [("status", .str "saved")])]
            | .json none => return [.error 400 "invalid request"]
            | .json (some req) => updateFromJson project.projectName f.path req

/-- Put the row of a function back after an error. -/
def restoreFunction (f : FunctionRow) (text : String) : Replies := do
  let _ ← functionQuery (.createFunction f.projectID f.name f.language f.path f.isAsync f.createdBy)
  return [.error 500 text]

def deleteFunction (c : Context) (fnHex : String) : Replies := do
  match HexText.decode fnHex with
  | none => return [.error 400 "invalid function id"]
  | some fnID =>
      match ← functionQuery (.getFunctionByID (some (.copy fnID))) with
      | .error _ => return [.error 404 "not found"]
      | .ok f =>
          match ← functionQuery (.deleteFunction (some (.copy fnID))) with
          | .error _ => return [.error 500 "db delete error"]
          | .ok _ => c.mustGetProject fun project => do
              if !(← onRepo project.projectName (.remove f.path)) then
                restoreFunction f "file remove error"
              else
                match ← onRepo project.projectName (.commit f.path) with
                | .error _ => restoreFunction f "commit error"
                | .ok _ =>
                    if ← onRepo project.projectName .push then
                      return [.json 200 (.obj [("status", .str "deleted")])]
                    else
                      restoreFunction f "push error"

/-! ### Synchronisation -/

/-- `filepath.Ext`. -/
def ext (path : String) : String :=
  let ending := path.toList.reverse.takeWhile (· ≠ '/')
  match ending.dropWhile (· ≠ '.') with
  | [] => ""
  | _ :: _ => String.ofList ('.' :: (ending.takeWhile (· ≠ '.')).reverse)

/-- `filepath.Base`, of the path of a file. -/
def base (path : String) : String :=
  String.ofList (path.toList.reverse.takeWhile (· ≠ '/')).reverse

/-- `strings.TrimSuffix`. -/
def trimSuffix (text ending : String) : String :=
  if ending.toList.isSuffixOf text.toList then
    String.ofList (text.toList.take (text.length - ending.length))
  else
    text

/-- Lookup in `extLang`. -/
def extLang (extension : String) : Option String :=
  (Language.all.find? (·.ext = extension)).map Language.tag

structure SyncContext where
  projectUUID : Uuid
  projectName : String
  userID : Bytes
  existingFns : List FunctionRow
  existingEps : List EndpointView

/-- `existingPaths[path]`; of rows with one path the last one counts. -/
def SyncContext.existingPath (s : SyncContext) (path : String) : Option Uuid :=
  (s.existingFns.reverse.find? (·.path = path)).map (·.id)

def SyncContext.hasGet (s : SyncContext) (fnID : Uuid) : Bool :=
  s.existingEps.any fun ep => ep.endpoint.functionID = fnID ∧ ep.endpoint.method = "GET"

/-- The endpoint that a function gets if it has none for `GET`. -/
def ensureEndpoint (s : SyncContext) (fnID : Uuid) (fnName : String) : PortalProgram Unit := do
  if s.hasGet fnID then
    return
  else
    let _ ← endpointQuery (.createEndpoint s.projectUUID s!"/{s.projectName}/{fnName}" "GET"
      "public" fnID)
    return

/-- What the walk does at a file. -/
def syncFile (settings : Settings) (s : SyncContext) (path : String) : PortalProgram Unit := do
  match extLang (ext path) with
  | none => return
  | some lang =>
      let fnName := trimSuffix (base path) (ext path)
      match s.existingPath path with
      | some id => ensureEndpoint s id fnName
      | none =>
          match ← functionQuery (.createFunction s.projectUUID fnName lang path false s.userID) with
          | .error _ => return
          | .ok fn =>
              ensureEndpoint s fn.id fnName
              let _ ← createFunctionCRD
                { namespace_ := "default"
                  name := fnName
                  project := s.projectName
                  language := lang
                  gitCreds := settings.vcsToken
                  isAsync := false }
              return

def syncFiles (settings : Settings) (s : SyncContext) : List String → PortalProgram Unit
  | [] => return
  | path :: paths => do
      syncFile settings s path
      syncFiles settings s paths

/-- `SyncRepoFunctionsToDb`; the result says whether it has no error. -/
def syncRepoFunctionsToDb (settings : Settings) (projectUUID : Uuid) (projectName : String)
    (userID : Bytes) : PortalProgram Bool := do
  if ← onRepo projectName .new then
    match ← functionQuery (.listFunctionsForProject projectUUID) with
    | .error _ => return false
    | .ok existingFns =>
        match ← endpointQuery (.listEndpointsForProject projectUUID) with
        | .error _ => return false
        | .ok existingEps =>
            let files ← onRepo projectName (.listFiles "/functions")
            syncFiles settings { projectUUID, projectName, userID, existingFns, existingEps } files
            return true
  else
    return false

end FunctionHandlers

end Portal

end Litefunctions
