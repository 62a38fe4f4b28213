import Litefunctions.Languages
import Litefunctions.PortalCalls
import Mathlib.Algebra.Group.Int.Defs
import Mathlib.Algebra.Group.Nat.Defs

/-!
# Requests to the portal

Cookies, parameters and replies of the portal's handlers, and the two
middlewares in front of them.  A request without a valid session is redirected.
`ProjectMiddleware` takes the project from a cookie; where it answers with an
error it does not abort, so the handler still runs, without a project.
-/

namespace Litefunctions

namespace Portal

open Program

/-! ### Texts -/

/-- `strings.Contains`. -/
def containsText (text part : String) : Bool :=
  text.toList.tails.any part.toList.isPrefixOf

/-- `strings.TrimRight(text, "/")`. -/
def trimSlashes (text : String) : String :=
  String.ofList (text.toList.rdropWhile (· = '/'))

/-- The digits of a number, unless there are none or there is another character. -/
def decimal? (digits : List Char) : Option Nat :=
  if digits.isEmpty ∨ digits.any (fun char => !char.isDigit) then none
  else some (digits.foldl (fun value char => 10 * value + (char.toNat - '0'.toNat)) 0)

/-- `strconv.Atoi`: its value, and whether it has no error.  A number that is
out of range is cut off. -/
def atoi (text : String) : Int × Bool :=
  let signed : Bool × List Char :=
    match text.toList with
    | '-' :: digits => (true, digits)
    | '+' :: digits => (false, digits)
    | digits => (false, digits)
  match decimal? signed.2 with
  | none => (0, false)
  | some value =>
      if signed.1 then
        if 2 ^ 63 < value then (-2 ^ 63, false) else (-value, true)
      else
        if 2 ^ 63 ≤ value then (2 ^ 63 - 1, false) else (value, true)

/-- The conversion to `int32`. -/
def int32 (value : Int) : Int :=
  value.bmod (2 ^ 32)

/-- The white space of `fmt.Sscanf`. -/
def isSpace (char : Char) : Bool :=
  let code := char.toNat
  (0x9 ≤ code && code ≤ 0xd) || code = 0x20 || code = 0x85 || code = 0xa0 || code = 0x1680 ||
    (0x2000 ≤ code && code ≤ 0x200a) || code = 0x2028 || code = 0x2029 || code = 0x202f ||
    code = 0x205f || code = 0x3000

/-- Skip white space; a newline is an error. -/
def skipSpace : List Char → Option (List Char)
  | [] => some []
  | '\n' :: _ => none
  | char :: rest => if isSpace char then skipSpace rest else some (char :: rest)

/-- Pairs of digits up to the first other character; a digit without a second
one is an error. -/
def scanHexPairs : List Char → Option Bytes
  | [] => some []
  | [high] => if (HexText.digitValue? high).isSome then none else some []
  | high :: low :: rest =>
      match HexText.digitValue? high with
      | none => some []
      | some _ =>
          match HexText.byte? high low with
          | none => none
          | some byte => (scanHexPairs rest).map (byte :: ·)

/-- `fmt.Sscanf(text, "%x", &bytes)`; on an error the bytes stay nil. -/
def scanHex (text : String) : Option Bytes :=
  match (skipSpace text.toList).bind scanHexPairs with
  | some (byte :: bytes) => some (byte :: bytes)
  | _ => none

/-- The text of an id in a JSON response. -/
def Uuid.text (id : Uuid) : String :=
  let digits := id.hex.toList
  let part (start length : Nat) : String := String.ofList ((digits.drop start).take length)
  s!"{part 0 8}-{part 8 4}-{part 12 4}-{part 16 4}-{part 20 12}"

/-! ### Replies -/

inductive Json where
  | null
  | bool (value : Bool)
  | str (value : String)
  /-- Bytes as a text; what is not UTF-8 is replaced. -/
  | text (bytes : Bytes)
  | time (seconds : Int)
  | base64 (bytes : Bytes)
  /-- The text of an error of the database, behind another text. -/
  | dbError (leading : String) (err : DbError)
  | arr (items : List Json)
  | obj (fields : List (String × Json))

namespace Page

structure Project where
  id : String
  name : String
  role : String
  deriving DecidableEq, Repr

structure Function where
  id : String
  name : String
  language : String
  icon : String
  endpointID : String
  deriving DecidableEq, Repr

structure Lang where
  id : String
  icon : String
  label : String
  aceMode : String
  deriving DecidableEq, Repr

structure Endpoint where
  id : String
  name : String
  method : String
  scope : String
  functionName : String
  language : String
  url : String
  isAsync : Bool
  deriving DecidableEq, Repr

end Page

/-- The content of a page. -/
inductive Page where
  | dashboard (username : String) (projects : List Page.Project) (activeProjectID : String)
  | configuration
  | functions (functions : List Page.Function) (langs : List Page.Lang)
      (activeProjectID username : String)
  | endpoints (endpoints : List Page.Endpoint)
  | data

/-- What a handler writes. -/
inductive Reply where
  | json (status : Nat) (body : Json)
  | status (code : Nat)
  | header (name value : String)
  | setCookie (name value : String) (maxAge : Int)
  | redirect (location : String)
  | page (content : Page)
  | event (name : String) (body : Json)
  /-- The handler panicked, which gin answers with status 500. -/
  | panicked

/-- `c.JSON(status, gin.H{"error": text})`. -/
abbrev Reply.error (status : Nat) (text : String) : Reply :=
  .json status (.obj [("error", .str text)])

/-- `c.JSON(status, gin.H{"msg": text})`. -/
abbrev Reply.msg (status : Nat) (text : String) : Reply :=
  .json status (.obj [("msg", .str text)])

/-- A handler returns what it wrote. -/
abbrev Replies := PortalProgram (List Reply)

/-! ### Middlewares -/

/-- The configuration that handlers use. -/
structure Settings where
  fqdn : String
  vcsToken : String
  ingestorUrl : String
  /-- The parsed `SESSION_EXPIRY`, in nanoseconds; `none` where it is invalid. -/
  sessionExpiry : Option Int
  /-- `unicode.ToLower`. -/
  toLower : Char → Char

/-- The cookies of a request, `lws_session` and `lws_project`. -/
structure Cookies where
  session : Option String
  project : Option String

/-- The project that `ProjectMiddleware` sets; its repository has its name. -/
structure ProjectContext where
  projectUUID : Uuid
  projectName : String

/-- What the middlewares set. -/
structure Context where
  userID : Bytes
  userName : String
  project : Option ProjectContext

/-- `MustGet` of what `ProjectMiddleware` sets. -/
def Context.mustGetProject (c : Context) (handler : ProjectContext → Replies) : Replies :=
  match c.project with
  | none => return [.panicked]
  | some project => handler project

/-- `GetUserSession` of the session store: the name and the id of the user. -/
def getUserSession (sessionID : String) : PortalProgram (Option (String × Bytes)) := do
  match ← authQuery (.getUserSession sessionID) with
  | .error _ => return none
  | .ok session =>
      match ← authQuery (.getUserByID session.userID) with
      | .error _ => return none
      | .ok user => return some (user.name, session.userID)

def authMiddleware (cookies : Cookies) (path : String) :
    PortalProgram (Except (List Reply) Context) := do
  match cookies.session with
  | none => return .error [.redirect ("/?redirect=" ++ path)]
  | some sessionID =>
      match ← getUserSession sessionID with
      | none => return .error [.setCookie "lws_session" "" (-1), .redirect ("/?redirect=" ++ path)]
      | some user => return .ok { userID := user.2, userName := user.1, project := none }

/-- `ProjectMiddleware`; after an error the chain of handlers goes on. -/
def projectMiddleware (cookies : Cookies) :
    PortalProgram (Except (List Reply) ProjectContext) := do
  match cookies.project with
  | none => return .error [.error 400 "project cookie missing"]
  | some projectIDHex =>
      match HexText.decode projectIDHex with
      | none => return .error [.error 400 "invalid project id in cookie"]
      | some projectIDBytes =>
          if projectIDBytes.length ≠ 16 then
            return .error [.error 400 "invalid project id in cookie"]
          else
            match ← projectQuery (.getProjectByID (.copy projectIDBytes)) with
            | .error _ => return .error [.error 404 "project not found"]
            | .ok proj =>
                if ← onRepo proj.name .new then
                  return .ok { projectUUID := .copy projectIDBytes, projectName := proj.name }
                else
                  return .error [.error 500 "error instantiating repo"]

/-- The handlers of a route behind both middlewares. -/
def protect (cookies : Cookies) (path : String) (handler : Context → Replies) : Replies := do
  match ← authMiddleware cookies path with
  | .error replies => return replies
  | .ok c =>
      match ← projectMiddleware cookies with
      | .error replies => return replies ++ (← handler c)
      | .ok project => handler { c with project := some project }

/-- The handlers of a route behind `AuthMiddleware` only. -/
def authenticate (cookies : Cookies) (path : String) (handler : Context → Replies) : Replies := do
  match ← authMiddleware cookies path with
  | .error replies => return replies
  | .ok c => handler c

end Portal

end Litefunctions
