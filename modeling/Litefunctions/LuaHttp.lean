import Litefunctions.LuaPatterns

/-!
# The HTTP server of the Lua runtime

The event loop collects the bytes of a connection until `parse_http_request`
finds a request in them.  The parser knows one framing: the body has as many
bytes as `Content-Length` says, and none without that field.
-/

namespace Litefunctions

namespace LuaRuntime

open Lua

/-- A request as the parser returns it; of two fields with one name the later
one counts. -/
structure HttpRequest where
  method : List UInt8
  path : List UInt8
  headers : List (List UInt8 × List UInt8)
  body : List UInt8
  deriving DecidableEq, Repr

/-- `string.lower`. -/
def lower (text : List UInt8) : List UInt8 :=
  text.map fun byte => if 65 ≤ byte ∧ byte ≤ 90 then byte + 32 else byte

/-- Lookup in the table of fields. -/
def header (headers : List (List UInt8 × List UInt8)) (name : List UInt8) : Option (List UInt8) :=
  (headers.reverse.find? (·.1 = name)).map Prod.snd

/-- The class `[^\r\n]`. -/
def notBreak (byte : UInt8) : Bool :=
  byte ≠ 13 ∧ byte ≠ 10

/-- The pattern `\r\n([^:]+):%s*([^\r\n]+)`. -/
def fieldItems : List Item :=
  [.literal 13, .literal 10, .capture (· ≠ 58), .literal 58, .star isSpace, .capture notBreak]

/-- The fields in the head of a request. -/
def headersOf (head : List UInt8) : List (List UInt8 × List UInt8) :=
  (gmatch fieldItems head).filterMap fun
    | [name, value] => some (lower name, value)
    | _ => none

/-- `tonumber` for the decimal texts that clients send as lengths. -/
def tonumber (text : List UInt8) : Option Nat :=
  if text ≠ [] ∧ text.all isDigit then some (decimal text) else none

def contentLength (headers : List (List UInt8 × List UInt8)) : Nat :=
  (tonumber ((header headers (bytes "content-length")).getD (bytes "0"))).getD 0

/-- Method and path of a request line. -/
def parseRequestLine (head : List UInt8) : Option (List UInt8 × List UInt8) := do
  let [requestLine] ← matchAnchored false [.capture notBreak] head | none
  let [method, path] ← matchAnchored false
    [.capture isVisible, .plus isSpace, .capture isVisible] requestLine | none
  return (method, path)

/-- `parse_http_request`; `none` stands for `nil`. -/
def parseHttpRequest (buf : List UInt8) : Option HttpRequest :=
  match findPlain [13, 10, 13, 10] buf with
  | none => none
  | some headerEnd =>
      let head := buf.take (headerEnd + 2)
      match parseRequestLine head with
      | none => none
      | some (method, path) =>
          let headers := headersOf head
          let body := buf.drop (headerEnd + 4)
          if body.length < contentLength headers then none
          else some ⟨method, path, headers, body.take (contentLength headers)⟩

/-- The methods that `handle_http_request` accepts. -/
def handledMethods : List (List UInt8) :=
  [bytes "POST", bytes "GET", bytes "PUT", bytes "PATCH", bytes "DELETE", bytes "OPTIONS",
    bytes "HEAD"]

/-- The name of the function: the field of the request or the configured name,
without spaces at its ends. -/
def functionName (settingsName : List UInt8) (headers : List (List UInt8 × List UInt8)) :
    List UInt8 :=
  ((((header headers (bytes "x-litefunction-name")).getD settingsName).dropWhile isSpace).reverse.dropWhile
    isSpace).reverse

/-- Status, body and content type of a response. -/
structure HttpResponse where
  status : Nat
  body : List UInt8
  contentType : List UInt8
  deriving DecidableEq, Repr

/-- What `handle_http_request` passes to `invoke_lua`, or the response without a
call. -/
def invocation (settingsName : List UInt8) (req : HttpRequest) :
    Except HttpResponse (List UInt8 × List UInt8) :=
  if req.method ∉ handledMethods then
    .error ⟨405, bytes "method not allowed", bytes "text/plain"⟩
  else if functionName settingsName req.headers = [] then
    .error ⟨400, bytes "function name not provided", bytes "text/plain"⟩
  else
    .ok (functionName settingsName req.headers, req.body)

/-- `handle_http_request`; `invokeLua` returns an output or an error. -/
def handleHttpRequest (invokeLua : List UInt8 → List UInt8 → Except (List UInt8) (List UInt8))
    (settingsName : List UInt8) (req : HttpRequest) : HttpResponse :=
  match invocation settingsName req with
  | .error response => response
  | .ok (fnName, payload) =>
      match invokeLua fnName payload with
      | .error err =>
          if (findPlain (bytes "not found") err).isSome then ⟨404, err, bytes "text/plain"⟩
          else ⟨500, err, bytes "text/plain"⟩
      | .ok out => ⟨200, out, bytes "application/json"⟩

/-- The request that the event loop finds in a connection whose bytes arrive in
these chunks. -/
def receiveRequest : List UInt8 → List (List UInt8) → Option HttpRequest
  | _, [] => none
  | buf, chunk :: chunks =>
      match parseHttpRequest (buf ++ chunk) with
      | some req => some req
      | none => receiveRequest (buf ++ chunk) chunks

/-- The payload that the runtime passes to `invoke_lua` for a connection. -/
def servedPayload (settingsName : List UInt8) (chunks : List (List UInt8)) : Option (List UInt8) :=
  match receiveRequest [] chunks with
  | none => none
  | some req =>
      match invocation settingsName req with
      | .error _ => none
      | .ok (_, payload) => some payload

end LuaRuntime

end Litefunctions
