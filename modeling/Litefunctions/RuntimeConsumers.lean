import Litefunctions.BrokerRequests
import Litefunctions.Languages

/-!
# Consumers of the five language runtimes

Each runtime subscribes to the execution subject of a function, recovers the
request id from the subject of a message and publishes what the user's
function yields.  The runtimes are written in five languages and differ in the
language tag of their subjects and in how they recover the request id.
-/

namespace Litefunctions

namespace Runtimes

open SeparatedText Subject

/-- The code of a deployed function: the outputs for a request id and a
payload, and for Lua the one output or the error text. -/
structure UserCode where
  yields : (reqId : String) → (payload : Bytes) → List Bytes
  invokeLua : (payload : Bytes) → Except Bytes Bytes

/-- A subscription together with the messages published for each message
that it receives. -/
structure Consumer where
  subject : String
  handle : Msg → List Msg

/-- A consumer handles the messages that match its subscription. -/
def Consumer.receive (consumer : Consumer) (msg : Msg) : List Msg :=
  if matchesPattern consumer.subject msg.subject then consumer.handle msg else []

/-- `msg.subject.split(".")[-1]` of Python, and its equivalents in Go and
Rust. -/
def lastToken (subject : String) : String :=
  (tokens subject).getLast (pieces_ne_nil '.' subject)

/-- The consumer shared by the runtimes that stream the outputs of the user's
function: `requestId` recovers the id from a subject and is `none` where the
runtime skips the message. -/
def streamingConsumer (tag : String) (requestId : String → Option String)
    (project name : String) (code : UserCode) : Consumer where
  subject := s!"{project}.{name}.exec.{tag}.*"
  handle msg :=
    match requestId msg.subject with
    | none => []
    | some reqId =>
        (code.yields reqId msg.data).map fun out =>
          ⟨s!"{project}.{name}.res.{tag}.{reqId}", out⟩

theorem streamingConsumer_handle_subject (tag : String)
    (requestId : String → Option String) {project name reqId : String}
    {code : UserCode} {msg : Msg} (recovered : requestId msg.subject = some reqId) :
    ∀ out ∈ (streamingConsumer tag requestId project name code).handle msg,
      out.subject = s!"{project}.{name}.res.{tag}.{reqId}" := by
  intro out member
  simp only [streamingConsumer, recovered, List.mem_map] at member
  obtain ⟨data, -, rfl⟩ := member
  rfl

/-- `consume_function` of the Python runtime. -/
def pythonConsumeFunction : (project name : String) → UserCode → Consumer :=
  streamingConsumer "py" fun subject => some (lastToken subject)

/-- `StartFunction` and `handleMessage` of the Go runtime. -/
def goStartFunction : (project name : String) → UserCode → Consumer :=
  streamingConsumer "go" fun subject => some (lastToken subject)

/-- `start_function` of the Rust runtime. -/
def rustStartFunction : (project name : String) → UserCode → Consumer :=
  streamingConsumer "go" fun subject =>
    if lastToken subject = "" then none else some (lastToken subject)

/-- `consumeFunction` of the TypeScript runtime: `parts[4] ?? ""`. -/
def tsConsumeFunction : (project name : String) → UserCode → Consumer :=
  streamingConsumer "ts" fun subject => some ((tokens subject).getD 4 "")

/-- `consume_function` of the Lua runtime.  The pattern `[^.]+` finds the
non-empty tokens only, and an error text is published like an output. -/
def luaConsumeFunction (project name : String) (code : UserCode) : Consumer where
  subject := s!"{project}.{name}.exec.lua.*"
  handle msg :=
    let parts := (tokens msg.subject).filter (· ≠ "")
    let reqId := parts.getD 4 ""
    if reqId = "" then
      []
    else
      let out := match code.invokeLua msg.data with
        | .ok out => out
        | .error err => err
      [⟨s!"{project}.{name}.res.lua.{reqId}", out⟩]

theorem luaConsumeFunction_handle_subject (project name : String) (code : UserCode)
    (msg : Msg) {reqId : String}
    (recovered : ((tokens msg.subject).filter (· ≠ "")).getD 4 "" = reqId) :
    ∀ out ∈ (luaConsumeFunction project name code).handle msg,
      out.subject = s!"{project}.{name}.res.lua.{reqId}" := by
  intro out member
  simp only [luaConsumeFunction, recovered] at member
  split at member
  · simp at member
  · obtain rfl := List.mem_singleton.mp member
    rfl

end Runtimes

namespace Language

/-- The consumer of a function in the runtime of its language. -/
def consumer : Language → (project name : String) → Runtimes.UserCode → Runtimes.Consumer
  | python => Runtimes.pythonConsumeFunction
  | go => Runtimes.goStartFunction
  | rust => Runtimes.rustStartFunction
  | ts => Runtimes.tsConsumeFunction
  | lua => Runtimes.luaConsumeFunction

end Language

end Litefunctions
