import Litefunctions.LuaPatterns

/-!
# Polling NATS from Lua

The Lua runtime reads the frames of the broker from a socket that does not
block.  `poll_once` reads a line, and after the line of a message its payload
and the line break behind it.  A read that finds too little takes what is there
and drops it.  This file models the socket, the frames and `poll_once`.
-/

namespace Litefunctions

namespace LuaRuntime

open Lua

/-! ### The socket -/

/-- `receive("*l")` with the bytes that are available: the line without its
carriage returns, or `none` for a timeout, and the bytes that remain. -/
def receiveLine (available : List UInt8) : Option (List UInt8) × List UInt8 :=
  if 10 ∈ available then
    (some ((available.takeWhile (· ≠ 10)).filter (· ≠ 13)),
      (available.dropWhile (· ≠ 10)).drop 1)
  else
    (none, [])

/-- `receive(size)`.  It asks for data before it counts, so that `receive(0)`
times out too when nothing is available. -/
def receiveBytes (size : Nat) (available : List UInt8) : Option (List UInt8) × List UInt8 :=
  if available = [] ∨ available.length < size then
    (none, [])
  else
    (some (available.take size), available.drop size)

/-- The bytes that arrive before each of the reads of one `poll_once`. -/
structure Arrivals where
  beforeLine : List UInt8
  beforePayload : List UInt8
  beforeTrailer : List UInt8
  deriving DecidableEq, Repr

def Arrivals.all (arrivals : Arrivals) : List UInt8 :=
  arrivals.beforeLine ++ arrivals.beforePayload ++ arrivals.beforeTrailer

/-! ### Reading frames -/

/-- The pattern of the line of a message, with this number of fields before the
size. -/
def messageItems (fields : Nat) : List Item :=
  [.literal 77, .literal 83, .literal 71] ++
    (List.replicate fields [.plus isSpace, .capture isVisible]).flatten ++
      [.plus isSpace, .capture isDigit]

/-- Subject, subscription and size of a message, with or without a reply
subject. -/
def parseMessage (line : List UInt8) : Option (List UInt8 × List UInt8 × Nat) :=
  match matchAnchored true (messageItems 3) line with
  | some [subject, sid, _, size] => some (subject, sid, decimal size)
  | _ =>
      match matchAnchored true (messageItems 2) line with
      | some [subject, sid, size] => some (subject, sid, decimal size)
      | _ => none

/-- What one `poll_once` does: the message that it passes to a handler, what it
sends, its two results, and the bytes that remain available. -/
structure Polled where
  passed : Option (List UInt8 × List UInt8)
  sent : List UInt8
  ok : Bool
  timeout : Bool
  available : List UInt8
  deriving DecidableEq, Repr

/-- `poll_once`; `subs` tells the subscriptions that have a handler. -/
def pollOnce (subs : List UInt8 → Bool) (arrivals : Arrivals) (available : List UInt8) : Polled :=
  match receiveLine (available ++ arrivals.beforeLine) with
  | (none, rest) => ⟨none, [], true, true, rest ++ arrivals.beforePayload ++ arrivals.beforeTrailer⟩
  | (some line, rest) =>
      if line.take 4 = bytes "PING" then
        ⟨none, bytes "PONG\r\n", true, false,
          rest ++ arrivals.beforePayload ++ arrivals.beforeTrailer⟩
      else if line.take 3 = bytes "MSG" then
        match parseMessage line with
        | none => ⟨none, [], true, false, rest ++ arrivals.beforePayload ++ arrivals.beforeTrailer⟩
        | some (subject, sid, size) =>
            match receiveBytes size (rest ++ arrivals.beforePayload) with
            | (none, rest) => ⟨none, [], false, true, rest ++ arrivals.beforeTrailer⟩
            | (some payload, rest) =>
                ⟨if subs sid then some (subject, payload) else none, [], true, false,
                  (receiveBytes 2 (rest ++ arrivals.beforeTrailer)).2⟩
      else
        ⟨none, [], true, false, rest ++ arrivals.beforePayload ++ arrivals.beforeTrailer⟩

/-- Repeated calls of `poll_once`: the messages that they pass to handlers, and
the bytes that remain available. -/
def pollAll (subs : List UInt8 → Bool) :
    List UInt8 → List Arrivals → List (List UInt8 × List UInt8) × List UInt8
  | available, [] => ([], available)
  | available, arrivals :: polls =>
      let polled := pollOnce subs arrivals available
      let later := pollAll subs polled.available polls
      (polled.passed.toList ++ later.1, later.2)

/-! ### Frames -/

/-- A field of the line of a message. -/
def IsField (field : List UInt8) : Prop :=
  field ≠ [] ∧ ∀ byte ∈ field, isVisible byte = true

instance (field : List UInt8) : Decidable (IsField field) :=
  inferInstanceAs (Decidable (_ ∧ _))

/-- A message as the broker sends it. -/
structure Message where
  subject : List UInt8
  sid : List UInt8
  reply : Option (List UInt8)
  size : List UInt8
  payload : List UInt8
  subjectField : IsField subject
  sidField : IsField sid
  replyField : ∀ field ∈ reply, IsField field
  sizeDigits : size ≠ [] ∧ ∀ byte ∈ size, isDigit byte = true
  sizeEq : decimal size = payload.length

namespace Message

/-- The line of a message without its line break. -/
def line (message : Message) : List UInt8 :=
  bytes "MSG" ++ (32 :: message.subject ++ (32 :: message.sid ++
    ((match message.reply with
      | none => []
      | some reply => 32 :: reply) ++ 32 :: message.size)))

def header (message : Message) : List UInt8 :=
  message.line ++ [13, 10]

end Message

/-- A frame of the broker; the options of `INFO` are a JSON object on one line. -/
inductive Frame where
  | info (members : List UInt8) (oneLine : 10 ∉ members)
  | ok
  | ping
  | msg (message : Message)

def Frame.encode : Frame → List UInt8
  | info members _ => bytes "INFO \x7b" ++ members ++ bytes "\x7d\r\n"
  | ok => bytes "+OK\r\n"
  | ping => bytes "PING\r\n"
  | msg message => message.header ++ message.payload ++ [13, 10]

/-- The stream of bytes of a sequence of frames. -/
def encode (frames : List Frame) : List UInt8 :=
  (frames.map Frame.encode).flatten

/-- The messages for the subscriptions that have a handler. -/
def messages (subs : List UInt8 → Bool) (frames : List Frame) : List (List UInt8 × List UInt8) :=
  frames.filterMap fun
    | .msg message => if subs message.sid then some (message.subject, message.payload) else none
    | _ => none

end LuaRuntime

end Litefunctions
