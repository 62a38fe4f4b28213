import Litefunctions.LuaHttp
import Mathlib.Data.List.Sort

/-!
# Requests that the ingestor proxies to Lua

`proxyToRuntime` builds a new request with the body of the client's request, so
its length is unknown to the HTTP client, which sends it in chunks and without
`Content-Length`.  The Lua parser looks for that field only.  Whatever the body
was, the function gets none of it.
-/

namespace Litefunctions

namespace Ingestor

namespace Proxy

open Lua

/-- The bytes that a value of a field may have. -/
def validInValue (byte : UInt8) : Bool :=
  byte = 9 ∨ 32 ≤ byte ∧ byte ≠ 127

/-- A field of a header; Go checks names and values before it sends them. -/
structure HeaderField where
  name : List UInt8
  value : List UInt8
  plainName : name ≠ [] ∧ ∀ byte ∈ name, isVisible byte = true ∧ byte ≠ 58
  plainValue : ∀ byte ∈ value, validInValue byte = true

/-- The body of a request: none at all, or a stream that is read in pieces. -/
inductive RequestBody where
  | noBody
  | stream (pieces : List (List UInt8)) (notEmpty : [] ∉ pieces)

def RequestBody.content : RequestBody → List UInt8
  | noBody => []
  | stream pieces _ => pieces.flatten

/-- What `proxyToRuntime` uses of a request and of the function it is for. -/
structure ProxiedRequest where
  method : List UInt8
  path : List UInt8
  rawQuery : List UInt8
  header : List HeaderField
  body : RequestBody
  project : List UInt8
  name : List UInt8
  host : List UInt8
  methodToken : method ≠ [] ∧ ∀ byte ∈ method, isVisible byte = true
  plainQuery : ∀ byte ∈ rawQuery, isVisible byte = true
  plainProject : ∀ byte ∈ project, validInValue byte = true
  plainFunction : ∀ byte ∈ name, validInValue byte = true
  plainHost : ∀ byte ∈ host, validInValue byte = true

/-! ### The request of `proxyToRuntime` -/

/-- `strings.TrimPrefix`. -/
def trimPrefix (text start : List UInt8) : List UInt8 :=
  if start <+: text then text.drop start.length else text

/-- The path behind `/lambda/{project}/{name}`. -/
def runtimePath (request : ProxiedRequest) : List UInt8 :=
  match trimPrefix request.path
    (bytes "/lambda/" ++ request.project ++ bytes "/" ++ request.name) with
  | [] => [47]
  | byte :: rest => if byte = 47 then byte :: rest else 47 :: byte :: rest

/-- The bytes that Go leaves as they are in a path. -/
def keptInPath (byte : UInt8) : Bool :=
  (48 ≤ byte ∧ byte ≤ 57) ∨ (65 ≤ byte ∧ byte ≤ 90) ∨ (97 ≤ byte ∧ byte ≤ 122) ∨
    byte ∈ bytes "-_.~$&+,/:;=@"

def hexDigit (digit : UInt8) : UInt8 :=
  if digit < 10 then 48 + digit else 55 + digit

/-- `EscapedPath`. -/
def escapePath (path : List UInt8) : List UInt8 :=
  path.flatMap fun byte =>
    if keptInPath byte then [byte] else [37, hexDigit (byte / 16), hexDigit (byte % 16)]

/-- The target of the request line. -/
def target (request : ProxiedRequest) : List UInt8 :=
  escapePath (runtimePath request) ++
    if request.rawQuery = [] then [] else 63 :: request.rawQuery

/-- `Header.Set`. -/
def setHeader (field : HeaderField) (header : List HeaderField) : List HeaderField :=
  header.filter (fun other => LuaRuntime.lower other.name ≠ LuaRuntime.lower field.name) ++ [field]

/-- The header that `proxyToRuntime` sends. -/
def proxiedHeader (request : ProxiedRequest) : List HeaderField :=
  setHeader ⟨bytes "X-Litefunction-Project", request.project, by decide +kernel, request.plainProject⟩
    (setHeader ⟨bytes "X-Litefunction-Name", request.name, by decide +kernel, request.plainFunction⟩
      request.header)

/-! ### The HTTP client -/

/-- The fields that the client writes itself. -/
def excludedNames : List (List UInt8) :=
  [bytes "host", bytes "user-agent", bytes "content-length", bytes "transfer-encoding",
    bytes "trailer"]

/-- The methods whose requests usually lack a body. -/
def usuallyLackBody : List (List UInt8) :=
  [bytes "GET", bytes "HEAD", bytes "DELETE", bytes "OPTIONS", bytes "PROPFIND", bytes "SEARCH"]

/-- How the client tells the runtime where the body ends. -/
inductive Framing where
  | absent
  | lengthZero
  | chunked (pieces : List (List UInt8))

/-- A body of unknown length is sent in chunks, unless the method usually lacks
a body and there is nothing to send. -/
def framing (request : ProxiedRequest) : Framing :=
  match request.body with
  | .noBody =>
      if request.method ∈ [bytes "POST", bytes "PUT", bytes "PATCH"] then .lengthZero else .absent
  | .stream pieces _ =>
      if request.method ∈ usuallyLackBody ∧ pieces = [] then .absent else .chunked pieces

/-- Spaces at the ends of a value are not sent. -/
def trimSpace (text : List UInt8) : List UInt8 :=
  ((text.dropWhile isSpace).reverse.dropWhile isSpace).reverse

def framingFields : Framing → List HeaderField
  | .absent => []
  | .lengthZero => [⟨bytes "Content-Length", bytes "0", by decide +kernel, by decide +kernel⟩]
  | .chunked _ => [⟨bytes "Transfer-Encoding", bytes "chunked", by decide +kernel, by decide +kernel⟩]

/-- The field `User-Agent`: that of the header, if it has one, which may be
blank to send none. -/
def userAgentField (header : List HeaderField) : List HeaderField :=
  match header.find? (fun field => LuaRuntime.lower field.name = bytes "user-agent") with
  | some field => if trimSpace field.value = [] then [] else [field]
  | none => [⟨bytes "User-Agent", bytes "Go-http-client/1.1", by decide +kernel, by decide +kernel⟩]

/-- The client asks for compression unless the request has its own wishes. -/
def acceptEncodingField (request : ProxiedRequest) : List HeaderField :=
  if request.method = bytes "HEAD" ∨ request.header.any (fun field =>
      LuaRuntime.lower field.name ∈ [bytes "accept-encoding", bytes "range"] ∧ field.value ≠ []) then
    []
  else
    [⟨bytes "Accept-Encoding", bytes "gzip", by decide +kernel, by decide +kernel⟩]

/-- The fields in the order in which the client writes them. -/
def fields (request : ProxiedRequest) : List HeaderField :=
  ⟨bytes "Host", request.host, by decide +kernel, request.plainHost⟩ ::
    userAgentField (proxiedHeader request) ++ framingFields (framing request) ++
    ((proxiedHeader request).filter fun field =>
      LuaRuntime.lower field.name ∉ excludedNames).insertionSort (fun first second =>
        first.name ≤ second.name) ++
    acceptEncodingField request

def HeaderField.line (field : HeaderField) : List UInt8 :=
  field.name ++ bytes ": " ++ trimSpace field.value

def requestLine (request : ProxiedRequest) : List UInt8 :=
  request.method ++ 32 :: (target request ++ bytes " HTTP/1.1")

/-- Lines with their line breaks. -/
def joinLines (lines : List (List UInt8)) : List UInt8 :=
  (lines.map (· ++ [13, 10])).flatten

/-- The request line and the fields. -/
def head (request : ProxiedRequest) : List UInt8 :=
  joinLines (requestLine request :: (fields request).map HeaderField.line)

/-- The size of a chunk. -/
def hexText (size : Nat) : List UInt8 :=
  (Nat.toDigits 16 size).map fun char => char.toNat.toUInt8

/-- The body as it is sent. -/
def bodyBytes : Framing → List UInt8
  | .absent => []
  | .lengthZero => []
  | .chunked pieces =>
      (pieces.map fun piece => hexText piece.length ++ [13, 10] ++ piece ++ [13, 10]).flatten ++
        bytes "0\r\n\r\n"

/-- The bytes of the proxied request. -/
def wire (request : ProxiedRequest) : List UInt8 :=
  head request ++ [13, 10] ++ bodyBytes (framing request)

end Proxy

end Ingestor

end Litefunctions
