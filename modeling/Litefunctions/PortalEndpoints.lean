import Litefunctions.PortalFunctions

/-!
# Endpoint handlers, the status of actions and the pages of the portal

The id of an endpoint in a path names its row without its project.
-/

namespace Litefunctions

namespace Portal

open Program

namespace EndpointHandlers

def endpointJson (ep : Endpoint) : Json :=
  .obj [("ID", .str ep.id.text), ("ProjectID", .str ep.projectID.text), ("Name", .str ep.name),
    ("Method", .str ep.method), ("Scope", .str ep.scope),
    ("FunctionID", .str ep.functionID.text), ("CreatedAt", .time ep.createdAt)]

def listEndpoints (c : Context) (search limit offset : Option String) : Replies :=
  c.mustGetProject fun project => do
    match ← endpointQuery (.listEndpointsSearch project.projectUUID (search.getD "")
        (int32 (atoi (limit.getD "100")).1) (int32 (atoi (offset.getD "0")).1)) with
    | .error _ => return [.error 500 "database error"]
    | .ok eps =>
        return [.json 200 (.arr (eps.map fun e => .obj
          [("ID", .str e.endpoint.id.hex), ("Name", .str e.endpoint.name),
            ("Method", .str e.endpoint.method), ("Scope", .str e.endpoint.scope),
            ("FunctionName", .str e.functionName)]))]

def getEndpoint (epIDHex : String) : Replies := do
  match HexText.decode epIDHex with
  | none => return [.error 400 "invalid endpoint id"]
  | some epIDBytes =>
      match ← endpointQuery (.getEndpointByID (.copy epIDBytes)) with
      | .error _ => return [.error 404 "not found"]
      | .ok ep => return [.json 200 (endpointJson ep)]

structure UpdateEndpointRequest where
  method : String
  scope : String
  deriving DecidableEq, Repr

def updateEndpoint (epIDHex : String) (body : Option UpdateEndpointRequest) : Replies := do
  match HexText.decode epIDHex with
  | none => return [.error 400 "invalid endpoint id"]
  | some epIDBytes =>
      match body with
      | none => return [.error 400 "invalid request"]
      | some req =>
          match ← endpointQuery (.updateEndpointMethodScope (.copy epIDBytes) req.method
              req.scope) with
          | .error _ => return [.error 500 "database error"]
          | .ok ep => return [.json 200 (endpointJson ep)]

end EndpointHandlers

namespace ActionHandlers

structure StatusParams where
  branch : Option String
  status : Option String
  event : Option String
  workflowID : Option String
  limit : Option String

/-- The limit of the options, 0 without one; `none` where it is refused. -/
def StatusParams.limit? (params : StatusParams) : Option Int :=
  let limitRaw := params.limit.getD ""
  if limitRaw = "" then some 0
  else if (atoi limitRaw).2 ∧ 0 < (atoi limitRaw).1 then some (atoi limitRaw).1
  else none

/-- Send the progress once; the runs of the vendor are sent as their text. -/
def send (project : String) (opts : ActionsProgressOptions) : Replies := do
  match ← onVcs project (.getActionsProgress opts) with
  | .error text => return [.event "error" (.obj [("error", .str text)])]
  | .ok progress => return [.event "status" (.str progress)]

/-- The loop over the ticker; running out of `rounds` stands for the client
leaving then. -/
def sendUntilGone (project : String) (opts : ActionsProgressOptions) : (rounds : Nat) → Replies
  | 0 => return []
  | rounds + 1 => do
      if ← clientGone then
        return []
      else
        let sent ← send project opts
        return sent ++ (← sendUntilGone project opts rounds)

def status (c : Context) (params : StatusParams) (rounds : Nat) : Replies := do
  match ← newVendorClient with
  | .error text => return [.error 500 ("failed to init vcs client: " ++ text)]
  | .ok _ => c.mustGetProject fun project => do
      match params.limit? with
      | none => return [.error 400 "limit must be a positive integer"]
      | some limit =>
          let opts : ActionsProgressOptions :=
            { branch := params.branch.getD ""
              status := params.status.getD ""
              event := params.event.getD ""
              workflowID := params.workflowID.getD ""
              limit }
          let sent ← send project.projectName opts
          return .header "Content-Type" "text/event-stream" :: .status 200 :: sent ++
            (← sendUntilGone project.projectName opts rounds)

end ActionHandlers

namespace UIHandlers

/-- The name of a user, or another text if the user is not found. -/
def userNameOr (userID : Bytes) (otherwise : String) : PortalProgram String := do
  match ← authQuery (.getUserByID userID) with
  | .error _ => return otherwise
  | .ok user => return user.name

def dashboard (cookies : Cookies) (c : Context) : Replies := do
  let projects ← match ← accessQuery (.listProjectsForUser c.userID) with
    | .error _ => pure []
    | .ok dbProjects => pure (dbProjects.map fun p =>
        ({ id := p.1.id.hex, name := p.1.name, role := p.2.text } : Page.Project))
  let username ← userNameOr c.userID "User"
  return [.page (.dashboard username projects (cookies.project.getD ""))]

def icon (lang : String) : String :=
  s!"/static/imgs/{lang}-svgrepo-com.svg"

def langs : List Page.Lang :=
  [⟨"rust", icon "rust", "Rust", "rust"⟩,
    ⟨"go", icon "go", "Go", "golang"⟩,
    ⟨"python", icon "python", "Python", "python"⟩,
    ⟨"ts", icon "typescript", "TypeScript", "typescript"⟩,
    ⟨"lua", icon "lua", "Lua", "lua"⟩]

def functions (cookies : Cookies) (c : Context) : Replies :=
  c.mustGetProject fun project => do
    let eps ← FunctionHandlers.listEndpointsForProject project.projectUUID
    let functions ← match ← functionQuery (.listFunctionsForProject project.projectUUID) with
      | .error _ => pure []
      | .ok dbFns => pure (dbFns.map fun f =>
          ({ id := f.id.hex
             name := f.name
             language := f.language
             icon := icon f.language
             endpointID := FunctionHandlers.endpointByFn eps f.id } : Page.Function))
    let username ← userNameOr c.userID c.userName
    return [.page (.functions functions langs (cookies.project.getD "") username)]

def endpoints (settings : Settings) (c : Context) : Replies :=
  c.mustGetProject fun project => do
    let eps ← FunctionHandlers.listEndpointsForProject project.projectUUID
    return [.page (.endpoints (eps.map fun e =>
      { id := e.endpoint.id.hex
        name := e.endpoint.name
        method := e.endpoint.method
        scope := e.endpoint.scope
        functionName := e.functionName
        language := e.functionLanguage
        url := trimSlashes settings.ingestorUrl ++ e.endpoint.name
        isAsync := e.isAsync }))]

def data : Replies :=
  return [.page .data]

def configuration : Replies :=
  return [.page .configuration]

end UIHandlers

end Portal

end Litefunctions
