import Litefunctions.DecimalText
import Litefunctions.NatsFrames
import Mathlib.Logic.Function.Basic

/-!
# Sends that take a part

The sockets of the Lua runtime do not block, and a send may take only a part of
its bytes.  The client of the broker reports that to its caller and drops the
rest, and the event loop closes a socket after one send of its response.  The
connection to the broker holds whole frames as long as nothing follows a frame
that was cut.
-/

namespace Litefunctions

namespace LuaRuntime

open Lua DecimalText

/-! ### Client frames -/

/-- A frame of a client as the broker delimits it: a line, and after the line of
a message the payload that it announces.  What the arguments mean is left open. -/
inductive ClientFrame where
  | connect (options : List UInt8) (oneLine : 10 ∉ options)
  | sub (args : List UInt8) (oneLine : 10 ∉ args)
  | unsub (args : List UInt8) (oneLine : 10 ∉ args)
  | pub (args payload : List UInt8) (oneLine : 10 ∉ args)
  | ping
  | pong

/-- The line `verb args` and its line break. -/
def lineOf (verb args : List UInt8) : List UInt8 :=
  verb ++ args ++ [13, 10]

def ClientFrame.encode : ClientFrame → List UInt8
  | connect options _ => lineOf (bytes "CONNECT ") options
  | sub args _ => lineOf (bytes "SUB ") args
  | unsub args _ => lineOf (bytes "UNSUB ") args
  | pub args payload _ =>
      lineOf (bytes "PUB ") (args ++ 32 :: digitsOf payload.length) ++ payload ++ [13, 10]
  | ping => bytes "PING\r\n"
  | pong => bytes "PONG\r\n"

/-- Complete frames, and behind them at most a part of one more. -/
def IsFramed (wire : List UInt8) : Prop :=
  ∃ (frames : List ClientFrame) (tail : List UInt8) (last : ClientFrame),
    wire = frames.flatMap ClientFrame.encode ++ tail ∧ tail <+: last.encode

theorem isFramed_nil : IsFramed [] :=
  ⟨[], [], .pong, rfl, List.nil_prefix⟩

/-- Complete frames, and nothing behind them. -/
def IsWholeFrames (wire : List UInt8) : Prop :=
  ∃ frames : List ClientFrame, wire = frames.flatMap ClientFrame.encode

theorem IsWholeFrames.append_frame {wire : List UInt8} (whole : IsWholeFrames wire)
    (frame : ClientFrame) : IsWholeFrames (wire ++ frame.encode) := by
  obtain ⟨frames, rfl⟩ := whole
  exact ⟨frames ++ [frame], by simp⟩

theorem IsWholeFrames.append_take {wire : List UInt8} (whole : IsWholeFrames wire)
    (frame : ClientFrame) (accepted : Nat) :
    IsFramed (wire ++ frame.encode.take accepted) := by
  obtain ⟨frames, rfl⟩ := whole
  exact ⟨frames, frame.encode.take accepted, frame, rfl, List.take_prefix accepted frame.encode⟩

theorem IsWholeFrames.isFramed {wire : List UInt8} (whole : IsWholeFrames wire) :
    IsFramed wire := by
  simpa using whole.append_take .pong 0

/-! ### The client of the broker -/

variable {Handler : Type}

/-- The connection to the broker: the bytes that its socket took, the number of
the next subscription, and the handlers. -/
structure Connection (Handler : Type) where
  wire : List UInt8
  sid : Nat
  subs : List UInt8 → Option Handler

namespace Connection

/-- `NATS:send` on a socket that takes up to this many bytes. -/
def send (data : List UInt8) (accepted : Nat) (connection : Connection Handler) :
    Bool × Connection Handler :=
  (decide (data.length ≤ accepted),
    { connection with wire := connection.wire ++ data.take accepted })

/-- The options as `cjson.encode` writes them; the order of the two is open. -/
def connectOptions (verboseFirst : Bool) : List UInt8 :=
  if verboseFirst then bytes "\x7b\"verbose\":false,\"pedantic\":false\x7d"
  else bytes "\x7b\"pedantic\":false,\"verbose\":false\x7d"

/-- `NATS.new` once it has connected; the outcome of its send is ignored. -/
def new (verboseFirst : Bool) (accepted : Nat) : Connection Handler :=
  (send (lineOf (bytes "CONNECT ") (connectOptions verboseFirst)) accepted
    ⟨[], 1, fun _ => none⟩).2

/-- `NATS:publish`. -/
def publish (subject : List UInt8) (payload : Option (List UInt8)) (accepted : Nat)
    (connection : Connection Handler) : Bool × Connection Handler :=
  let payload := payload.getD []
  send (lineOf (bytes "PUB ") (subject ++ 32 :: digitsOf payload.length) ++ payload ++ [13, 10])
    accepted connection

/-- `NATS:subscribe`, with the number of the subscription when the send succeeds. -/
def subscribe (subject : List UInt8) (handler : Handler) (accepted : Nat)
    (connection : Connection Handler) : Option (List UInt8) × Connection Handler :=
  let sid := digitsOf connection.sid
  let added := { connection with
    sid := connection.sid + 1
    subs := Function.update connection.subs sid (some handler) }
  match send (lineOf (bytes "SUB ") (subject ++ 32 :: sid)) accepted added with
  | (true, sent) => (some sid, sent)
  | (false, sent) => (none, { sent with subs := Function.update sent.subs sid none })

/-- `NATS:unsubscribe`. -/
def unsubscribe (sid : List UInt8) (accepted : Nat) (connection : Connection Handler) :
    Bool × Connection Handler :=
  send (lineOf (bytes "UNSUB ") sid) accepted
    { connection with subs := Function.update connection.subs sid none }

/-- The answer of `NATS:poll_once` to a `PING`. -/
def pong (accepted : Nat) (connection : Connection Handler) : Connection Handler :=
  (send (bytes "PONG\r\n") accepted connection).2

end Connection

/-- The calls that send on the connection to the broker. -/
inductive NatsCall (Handler : Type) where
  | publish (subject : List UInt8) (payload : Option (List UInt8))
  | subscribe (subject : List UInt8) (handler : Handler)
  | unsubscribe (sid : List UInt8)
  | pong

namespace NatsCall

def perform (call : NatsCall Handler) (accepted : Nat) (connection : Connection Handler) :
    Connection Handler :=
  match call with
  | publish subject payload => (connection.publish subject payload accepted).2
  | subscribe subject handler => (connection.subscribe subject handler accepted).2
  | unsubscribe sid => (connection.unsubscribe sid accepted).2
  | pong => connection.pong accepted

/-- What the call passes to the socket when this is the number of the next
subscription. -/
def text (sid : Nat) : NatsCall Handler → List UInt8
  | publish subject payload =>
      lineOf (bytes "PUB ") (subject ++ 32 :: digitsOf (payload.getD []).length) ++
        payload.getD [] ++ [13, 10]
  | subscribe subject _ => lineOf (bytes "SUB ") (subject ++ 32 :: digitsOf sid)
  | unsubscribe sid => lineOf (bytes "UNSUB ") sid
  | pong => bytes "PONG\r\n"

/-- No line break in what the caller writes into a line. -/
def IsOneLine : NatsCall Handler → Prop
  | publish subject _ => 10 ∉ subject
  | subscribe subject _ => 10 ∉ subject
  | unsubscribe sid => 10 ∉ sid
  | pong => True

theorem perform_wire (call : NatsCall Handler) (accepted : Nat)
    (connection : Connection Handler) :
    (call.perform accepted connection).wire =
      connection.wire ++ (call.text connection.sid).take accepted := by
  cases call with
  | publish subject payload => rfl
  | subscribe subject handler =>
      by_cases whole :
          (lineOf (bytes "SUB ") (subject ++ 32 :: digitsOf connection.sid)).length ≤ accepted
      · simp [perform, Connection.subscribe, Connection.send, text, whole]
      · simp [perform, Connection.subscribe, Connection.send, text, whole]
  | unsubscribe sid => rfl
  | pong => rfl

theorem notMem_digits (number : Nat) : 10 ∉ digitsOf number := by
  intro member
  have bound := (mem_digitsOf member).1
  exact absurd bound (by decide)

/-- The text of a call is a frame. -/
theorem text_frame {call : NatsCall Handler} (oneLine : call.IsOneLine) (sid : Nat) :
    ∃ frame : ClientFrame, frame.encode = call.text sid := by
  cases call with
  | publish subject payload =>
      exact ⟨.pub subject (payload.getD []) oneLine, rfl⟩
  | subscribe subject handler =>
      have inArgs : 10 ∉ subject ++ 32 :: digitsOf sid := by
        simp only [List.mem_append, List.mem_cons, not_or]
        exact ⟨oneLine, by decide, notMem_digits sid⟩
      exact ⟨.sub (subject ++ 32 :: digitsOf sid) inArgs, rfl⟩
  | unsubscribe sid =>
      exact ⟨.unsub sid oneLine, rfl⟩
  | pong =>
      exact ⟨.pong, rfl⟩

end NatsCall

/-! ### The event loop -/

/-- The reason of a status. -/
def reasonOf (statusCode : Nat) : List UInt8 :=
  match statusCode with
  | 200 => bytes "OK"
  | 400 => bytes "Bad Request"
  | 404 => bytes "Not Found"
  | 405 => bytes "Method Not Allowed"
  | 500 => bytes "Internal Server Error"
  | _ => bytes "OK"

/-- The text of `send_http_response`. -/
def responseText (statusCode : Nat) (body contentType : Option (List UInt8)) : List UInt8 :=
  let body := body.getD []
  let contentType := contentType.getD (bytes "text/plain")
  bytes "HTTP/1.1 " ++ digitsOf statusCode ++ 32 :: reasonOf statusCode ++ [13, 10] ++
    bytes "Connection: close\r\n" ++
    bytes "Content-Type: " ++ contentType ++ [13, 10] ++
    bytes "Content-Length: " ++ digitsOf body.length ++ [13, 10] ++
    [13, 10] ++ body

/-- A call to the client of the broker, or a response to a request. -/
inductive Call (Handler : Type) where
  | nats (call : NatsCall Handler)
  | respond (statusCode : Nat) (body contentType : Option (List UInt8))

/-- The connection to the broker, and for each closed connection of a request
the response with what its socket took of it. -/
structure EventLoop (Handler : Type) where
  nats : Connection Handler
  closed : List (List UInt8 × List UInt8)

namespace EventLoop

/-- A call whose socket takes up to this many bytes.  A response is sent once,
and its connection is closed. -/
def step (loop : EventLoop Handler) (call : Call Handler × Nat) : EventLoop Handler :=
  match call with
  | (.nats call, accepted) => { loop with nats := call.perform accepted loop.nats }
  | (.respond statusCode body contentType, accepted) =>
      let resp := responseText statusCode body contentType
      { loop with closed := loop.closed ++ [(resp, resp.take accepted)] }

def start (verboseFirst : Bool) (accepted : Nat) : EventLoop Handler where
  nats := Connection.new verboseFirst accepted
  closed := []

def run (loop : EventLoop Handler) (calls : List (Call Handler × Nat)) : EventLoop Handler :=
  calls.foldl step loop

/-- The connection holds frames, and every response reached its socket whole. -/
def IsSound (loop : EventLoop Handler) : Prop :=
  IsFramed loop.nats.wire ∧ ∀ response ∈ loop.closed, response.2 = response.1

/-- The call puts nothing on the connection to the broker. -/
def TakesNothing : Call Handler × Nat → Prop
  | (.nats _, accepted) => accepted = 0
  | (.respond _ _ _, _) => True

/-- The socket takes the whole text or nothing of it, or it takes nothing behind
the text. -/
def IsUncut (text : List UInt8) (accepted : Nat) (later : List (Call Handler × Nat)) : Prop :=
  accepted = 0 ∨ text.length ≤ accepted ∨ ∀ call ∈ later, TakesNothing call

/-- What a call has to meet: its frame is cut only where no more follows, and a
response is taken whole. -/
def Meets (sid : Nat) (later : List (Call Handler × Nat)) : Call Handler × Nat → Prop
  | (.nats call, accepted) => call.IsOneLine ∧ IsUncut (call.text sid) accepted later
  | (.respond statusCode body contentType, accepted) =>
      (responseText statusCode body contentType).length ≤ accepted

/-- Every call of a run meets its condition in the state before it. -/
def AllMeet : EventLoop Handler → List (Call Handler × Nat) → Prop
  | _, [] => True
  | loop, call :: later => Meets loop.nats.sid later call ∧ AllMeet (loop.step call) later

/-- What holds in a state when these calls are still to come. -/
structure Holds (loop : EventLoop Handler) (later : List (Call Handler × Nat)) : Prop where
  frames : IsWholeFrames loop.nats.wire ∨
    (IsFramed loop.nats.wire ∧ ∀ call ∈ later, TakesNothing call)
  responses : ∀ response ∈ loop.closed, response.2 = response.1

theorem Holds.isSound {loop : EventLoop Handler} {later : List (Call Handler × Nat)}
    (holds : loop.Holds later) : loop.IsSound := by
  constructor
  · rcases holds.frames with whole | ⟨framed, nothing⟩
    · exact whole.isFramed
    · exact framed
  · exact holds.responses

/-- One more frame behind whole ones. -/
theorem frames_of_isUncut {wire : List UInt8} (whole : IsWholeFrames wire) (frame : ClientFrame)
    {accepted : Nat} {later : List (Call Handler × Nat)}
    (uncut : IsUncut frame.encode accepted later) :
    IsWholeFrames (wire ++ frame.encode.take accepted) ∨
      (IsFramed (wire ++ frame.encode.take accepted) ∧ ∀ call ∈ later, TakesNothing call) := by
  rcases uncut with none | enough | nothing
  · left
    simpa [none] using whole
  · left
    rw [List.take_of_length_le enough]
    exact whole.append_frame frame
  · right
    exact ⟨whole.append_take frame accepted, nothing⟩

theorem Holds.step {loop : EventLoop Handler} {call : Call Handler × Nat}
    {later : List (Call Handler × Nat)} (holds : loop.Holds (call :: later))
    (meets : Meets loop.nats.sid later call) : (loop.step call).Holds later := by
  obtain ⟨kind, accepted⟩ := call
  cases kind with
  | nats call =>
      constructor
      · change IsWholeFrames (call.perform accepted loop.nats).wire ∨
          (IsFramed (call.perform accepted loop.nats).wire ∧ _)
        rw [call.perform_wire]
        rcases holds.frames with whole | ⟨framed, nothing⟩
        · obtain ⟨oneLine, uncut⟩ := meets
          obtain ⟨frame, text⟩ := call.text_frame oneLine loop.nats.sid
          rw [← text] at uncut ⊢
          exact frames_of_isUncut whole frame uncut
        · right
          have none : accepted = 0 := nothing _ List.mem_cons_self
          constructor
          · simpa [none] using framed
          · intro other member
            exact nothing other (List.mem_cons_of_mem _ member)
      · exact holds.responses
  | respond statusCode body contentType =>
      constructor
      · rcases holds.frames with whole | ⟨framed, nothing⟩
        · exact Or.inl whole
        · right
          constructor
          · exact framed
          · intro other member
            exact nothing other (List.mem_cons_of_mem _ member)
      · intro response member
        rcases List.mem_append.mp member with earlier | last
        · exact holds.responses response earlier
        · rw [List.mem_singleton.mp last]
          exact List.take_of_length_le meets

theorem Holds.run {loop : EventLoop Handler} {before later : List (Call Handler × Nat)}
    (holds : loop.Holds (before ++ later)) (meet : loop.AllMeet (before ++ later)) :
    (loop.run before).Holds later := by
  induction before generalizing loop with
  | nil => exact holds
  | cons call before induction =>
      obtain ⟨meets, meetLater⟩ := meet
      exact induction (holds.step meets) meetLater

theorem notMem_connectOptions (verboseFirst : Bool) :
    10 ∉ Connection.connectOptions verboseFirst := by
  cases verboseFirst <;> decide +kernel

theorem start_holds {verboseFirst : Bool} {accepted : Nat} {calls : List (Call Handler × Nat)}
    (uncut : IsUncut (lineOf (bytes "CONNECT ") (Connection.connectOptions verboseFirst))
      accepted calls) :
    (start verboseFirst accepted : EventLoop Handler).Holds calls := by
  constructor
  · exact frames_of_isUncut ⟨[], rfl⟩
      (.connect (Connection.connectOptions verboseFirst) (notMem_connectOptions verboseFirst)) uncut
  · intro response member
    cases member

/-- A run in which nothing follows a frame that was cut, and in which every
response is taken whole, keeps the framing in all its states. -/
theorem run_isSound {verboseFirst : Bool} {accepted : Nat} {calls : List (Call Handler × Nat)}
    (uncut : IsUncut (lineOf (bytes "CONNECT ") (Connection.connectOptions verboseFirst))
      accepted calls)
    (meet : (start verboseFirst accepted).AllMeet calls) :
    ∀ before, before <+: calls → ((start verboseFirst accepted).run before).IsSound := by
  rintro before ⟨later, rfl⟩
  exact ((start_holds uncut).run meet).isSound

/-- Two answers to the broker, the second cut, and a refused message. -/
def cutCalls : List (Call Unit × Nat) :=
  [(.nats .pong, 6), (.respond 405 none none, 200), (.nats .pong, 2),
    (.nats (.publish (bytes "a") (some (bytes "out"))), 0)]

theorem cutCalls_isSound : ((start true 80 : EventLoop Unit).run cutCalls).IsSound := by
  have meet : (start true 80 : EventLoop Unit).AllMeet cutCalls := by
    have answered : (responseText 405 none none).length ≤ 200 := by decide +kernel
    have subject : 10 ∉ bytes "a" := by decide +kernel
    refine ⟨⟨trivial, Or.inr (Or.inl (by decide +kernel))⟩, answered,
      ⟨trivial, Or.inr (Or.inr ?_)⟩, ⟨subject, Or.inl rfl⟩, trivial⟩
    intro call member
    rw [List.mem_singleton.mp member]
    rfl
  exact run_isSound (Or.inr (Or.inl (by decide +kernel))) meet cutCalls List.prefix_rfl

end EventLoop

/-! ### A frame that is cut -/

/-- What stands behind the first line break. -/
def behindLine (wire : List UInt8) : List UInt8 :=
  (wire.dropWhile (· ≠ 10)).drop 1

theorem behindLine_lineOf {verb args : List UInt8} (inVerb : 10 ∉ verb) (inArgs : 10 ∉ args)
    (rest : List UInt8) : behindLine (lineOf verb args ++ rest) = rest := by
  have noBreak : ∀ byte ∈ verb ++ args ++ [13], decide (byte ≠ 10) = true := by
    intro byte member
    apply decide_eq_true
    rintro rfl
    simp [inVerb, inArgs] at member
  have shape : lineOf verb args ++ rest = (verb ++ args ++ [13]) ++ 10 :: rest := by
    simp [lineOf]
  rw [behindLine, shape, List.dropWhile_append_of_pos noBreak]
  simp

theorem take_lineOf {verb : List UInt8} (long : 3 ≤ verb.length) (args rest : List UInt8) :
    (lineOf verb args ++ rest).take 3 = verb.take 3 := by
  rw [lineOf, List.append_assoc, List.append_assoc, List.take_append_of_le_length long]

/-- The first bytes of a frame tell its kind. -/
theorem ClientFrame.take_encode (frame : ClientFrame) (rest : List UInt8) :
    (frame.encode ++ rest).take 3 ∈
      ["CON", "SUB", "UNS", "PUB", "PIN", "PON"].map bytes := by
  cases frame with
  | connect options oneLine =>
      rw [encode, take_lineOf (by decide +kernel)]
      decide +kernel
  | sub args oneLine =>
      rw [encode, take_lineOf (by decide +kernel)]
      decide +kernel
  | unsub args oneLine =>
      rw [encode, take_lineOf (by decide +kernel)]
      decide +kernel
  | pub args payload oneLine =>
      rw [encode, List.append_assoc, List.append_assoc, take_lineOf (by decide +kernel)]
      decide +kernel
  | ping =>
      rw [encode, List.take_append_of_le_length (by decide +kernel)]
      decide +kernel
  | pong =>
      rw [encode, List.take_append_of_le_length (by decide +kernel)]
      decide +kernel

theorem ClientFrame.behindLine_encode {frame : ClientFrame} {rest : List UInt8}
    (isConnect : (frame.encode ++ rest).take 3 = bytes "CON") :
    behindLine (frame.encode ++ rest) = rest := by
  cases frame with
  | connect options oneLine =>
      exact behindLine_lineOf (by decide +kernel) oneLine rest
  | sub args oneLine =>
      rw [encode, take_lineOf (by decide +kernel)] at isConnect
      exact absurd isConnect (by decide +kernel)
  | unsub args oneLine =>
      rw [encode, take_lineOf (by decide +kernel)] at isConnect
      exact absurd isConnect (by decide +kernel)
  | pub args payload oneLine =>
      rw [encode, List.append_assoc, List.append_assoc, take_lineOf (by decide +kernel)]
        at isConnect
      exact absurd isConnect (by decide +kernel)
  | ping =>
      rw [encode, List.take_append_of_le_length (by decide +kernel)] at isConnect
      exact absurd isConnect (by decide +kernel)
  | pong =>
      rw [encode, List.take_append_of_le_length (by decide +kernel)] at isConnect
      exact absurd isConnect (by decide +kernel)

/-- What follows the line of a `CONNECT` is framed as well. -/
theorem IsFramed.behindConnect {options rest : List UInt8} (oneLine : 10 ∉ options)
    (framed : IsFramed (lineOf (bytes "CONNECT ") options ++ rest)) : IsFramed rest := by
  obtain ⟨frames, tail, last, wire, isPart⟩ := framed
  have head : (lineOf (bytes "CONNECT ") options ++ rest).take 3 = bytes "CON" := by
    rw [take_lineOf (by decide +kernel)]
    decide +kernel
  have behind : behindLine (lineOf (bytes "CONNECT ") options ++ rest) = rest :=
    behindLine_lineOf (by decide +kernel) oneLine rest
  cases frames with
  | nil =>
      -- The line is part of one frame, and nothing of that frame is behind it.
      obtain ⟨missing, whole⟩ := isPart
      have encoded : last.encode ++ [] = lineOf (bytes "CONNECT ") options ++ (rest ++ missing) := by
        rw [List.append_nil, ← whole, ← List.append_assoc, wire]
        rfl
      have lastHead : (last.encode ++ []).take 3 = bytes "CON" := by
        rw [encoded, take_lineOf (by decide +kernel)]
        decide +kernel
      have none : rest ++ missing = [] := by
        rw [← ClientFrame.behindLine_encode lastHead, encoded,
          behindLine_lineOf (by decide +kernel) oneLine]
      rw [(List.append_eq_nil_iff.mp none).1]
      exact isFramed_nil
  | cons frame frames =>
      rw [List.flatMap_cons, List.append_assoc] at wire
      rw [wire] at head
      refine ⟨frames, tail, last, ?_, isPart⟩
      rw [← behind, wire, ClientFrame.behindLine_encode head]

theorem IsFramed.take_mem {wire : List UInt8} (framed : IsFramed wire) (long : 3 ≤ wire.length) :
    wire.take 3 ∈ ["CON", "SUB", "UNS", "PUB", "PIN", "PON"].map bytes := by
  obtain ⟨frames, tail, last, rfl, missing, whole⟩ := framed
  cases frames with
  | nil =>
      have tailLong : 3 ≤ tail.length := long
      have first := last.take_encode []
      rw [List.append_nil, ← whole, List.take_append_of_le_length tailLong] at first
      exact first
  | cons frame frames =>
      rw [List.flatMap_cons, List.append_assoc]
      exact frame.take_encode _

/-- A `PONG` of which two bytes are taken, and a subscription behind it. -/
theorem EventLoop.cutPong_not_isSound :
    ¬ ((start true 80 : EventLoop Unit).run
      [(.nats .pong, 2), (.nats (.subscribe (bytes "a") ()), 9)]).IsSound := by
  intro sound
  have wire : ((start true 80 : EventLoop Unit).run
      [(.nats .pong, 2), (.nats (.subscribe (bytes "a") ()), 9)]).nats.wire =
        lineOf (bytes "CONNECT ") (Connection.connectOptions true) ++ bytes "POSUB a 1\r\n" := by
    decide +kernel
  have framed := sound.1
  rw [wire] at framed
  have first := (framed.behindConnect (notMem_connectOptions true)).take_mem (by decide +kernel)
  exact absurd first (by decide +kernel)

end LuaRuntime

end Litefunctions
