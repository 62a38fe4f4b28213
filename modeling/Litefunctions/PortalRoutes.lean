import Litefunctions.PortalEndpoints
import Litefunctions.PortalPasskeys
import Litefunctions.PortalProjects

/-!
# Routes of the portal

The router's table: which handler serves a route and which middlewares stand
before it.  A request carries its path parameters, its query parameters and
its parsed body; a body that does not parse is `none`.
-/

namespace Litefunctions

namespace Portal

open Program

/-- The routes behind `AuthMiddleware` and `ProjectMiddleware`. -/
inductive ProjectRoute where
  | configuration
  | functionsPage
  | endpointsPage
  | dataPage
  | listProjects
  | getProject (id : String)
  | deleteProject (id : String)
  | syncProject
  | createProjectInvite
  | listProjectAccess
  | updateProjectAccess (id : String) (body : Option String)
  | revokeProjectAccess (id : String)
  | createFunction (body : Option FunctionHandlers.CreateFunctionRequest)
  | listFunctions (search limit offset : Option String)
  | getFunction (fnID : String)
  | updateFunction (fnID : String) (body : FunctionHandlers.UpdateBody)
  | deleteFunction (fnID : String)
  | listEndpoints (search limit offset : Option String)
  | getEndpoint (epID : String)
  | updateEndpoint (epID : String) (body : Option EndpointHandlers.UpdateEndpointRequest)
  | actionsStatus (params : ActionHandlers.StatusParams) (rounds : Nat)

namespace ProjectRoute

def path : ProjectRoute → String
  | configuration => "/configuration/"
  | functionsPage => "/functions/"
  | endpointsPage => "/endpoints/"
  | dataPage => "/data/"
  | listProjects => "/api/projects/"
  | getProject id | deleteProject id => s!"/api/projects/{id}/"
  | syncProject => "/api/projects/sync/"
  | createProjectInvite => "/api/projects/invites/"
  | listProjectAccess => "/api/projects/access/"
  | updateProjectAccess id _ | revokeProjectAccess id => s!"/api/projects/access/{id}/"
  | createFunction _ | listFunctions _ _ _ => "/api/functions/"
  | getFunction fnID | updateFunction fnID _ | deleteFunction fnID => s!"/api/functions/{fnID}/"
  | listEndpoints _ _ _ => "/api/endpoints/"
  | getEndpoint epID | updateEndpoint epID _ => s!"/api/endpoints/{epID}/"
  | actionsStatus _ _ => "/api/actions/status/"

def handle (settings : Settings) (cookies : Cookies) (c : Context) : ProjectRoute → Replies
  | configuration => UIHandlers.configuration
  | functionsPage => UIHandlers.functions cookies c
  | endpointsPage => UIHandlers.endpoints settings c
  | dataPage => UIHandlers.data
  | listProjects => ProjectHandlers.listProjects c
  | getProject id => ProjectHandlers.getProject c id
  | deleteProject id => ProjectHandlers.deleteProject c id
  | syncProject => ProjectHandlers.syncProject settings c
  | createProjectInvite => ProjectHandlers.createProjectInvite c
  | listProjectAccess => ProjectHandlers.listProjectAccess c
  | updateProjectAccess id body => ProjectHandlers.updateProjectAccess c id body
  | revokeProjectAccess id => ProjectHandlers.revokeProjectAccess c id
  | createFunction body => FunctionHandlers.createFunction settings c body
  | listFunctions search limit offset => FunctionHandlers.listFunctions c search limit offset
  | getFunction fnID => FunctionHandlers.getFunction c fnID
  | updateFunction fnID body => FunctionHandlers.updateFunction c fnID body
  | deleteFunction fnID => FunctionHandlers.deleteFunction c fnID
  | listEndpoints search limit offset => EndpointHandlers.listEndpoints c search limit offset
  | getEndpoint epID => EndpointHandlers.getEndpoint epID
  | updateEndpoint epID body => EndpointHandlers.updateEndpoint epID body
  | actionsStatus params rounds => ActionHandlers.status c params rounds

end ProjectRoute

/-- The routes behind `AuthMiddleware` only. -/
inductive UserRoute where
  | dashboard
  | createProject (body : Option String)
  | joinProjectByInvite (code : Option String)

namespace UserRoute

def path : UserRoute → String
  | dashboard => "/dashboard/"
  | createProject _ => "/api/projects/"
  | joinProjectByInvite _ => "/api/projects/join/"

def handle (settings : Settings) (cookies : Cookies) (c : Context) : UserRoute → Replies
  | dashboard => UIHandlers.dashboard cookies c
  | createProject body => ProjectHandlers.createProject settings c body
  | joinProjectByInvite code => ProjectHandlers.joinProjectByInvite c code

end UserRoute

/-- The routes of the passkey ceremonies. -/
inductive PasskeyRoute (Response : Type) where
  | registerStart (body : Option String)
  | registerFinish (sessionKey : String) (response : Response)
  | loginStart (body : Option String)
  | loginFinish (sessionKey : String) (response : Response)
  | logout

namespace PasskeyRoute

variable {Response : Type}

def handle (settings : Settings) (authn : Passkeys.WebAuthn Response) (cookies : Cookies) :
    PasskeyRoute Response → Replies
  | registerStart body => Passkeys.beginRegistration settings authn body
  | registerFinish sessionKey response =>
      Passkeys.finishRegistration settings authn sessionKey response
  | loginStart body => Passkeys.beginLogin authn body
  | loginFinish sessionKey response => Passkeys.finishLogin settings authn sessionKey response
  | logout => Passkeys.logout cookies

end PasskeyRoute

inductive Route (Response : Type) where
  | project (route : ProjectRoute)
  | user (route : UserRoute)
  | passkey (route : PasskeyRoute Response)

/-- A request to the portal. -/
structure Request (Response : Type) where
  cookies : Cookies
  route : Route Response

variable {Response : Type}

def serve (settings : Settings) (authn : Passkeys.WebAuthn Response) (request : Request Response) :
    Replies :=
  match request.route with
  | .project route =>
      protect request.cookies route.path fun c => route.handle settings request.cookies c
  | .user route =>
      authenticate request.cookies route.path fun c => route.handle settings request.cookies c
  | .passkey route => route.handle settings authn request.cookies

end Portal

end Litefunctions
