import Litefunctions.BrokerRequests
import Mathlib.Logic.Function.Basic

/-!
# Result channels of the ingestor

`Subscribe` passes the results of a function from the callback of a
subscription to the handler of the request through a channel.  The callback
runs on a goroutine of its own, `Unsubscribe` does not wait for it, and the
cleanup of the handler closes the channel.  `Reply` waits for one message
instead and never ends its subscription.  This file models the goroutines of
all requests and shows when the ingestor sends on a closed channel.
-/

namespace Litefunctions

namespace Ingestor

namespace Goroutines

/-- The handlers that subscribe to results. -/
inductive Kind where
  | sync
  | sse
  | ws
  deriving DecidableEq

/-- Where the goroutine of a handler is: before it subscribes, in the `select`
of its loop or in `NextMsg`, in the two steps of the cleanup, before the
deferred `conn.Close`, or done. -/
inductive Handler where
  | preparing
  | waiting
  | writing (res : Bytes)
  | unsubscribing
  | closing
  | hangingUp
  | returned
  deriving DecidableEq

/-- Where the callback of a subscription is. -/
inductive Callback where
  | idle
  | running (data : Bytes)
  | copied (payload : Bytes)
  deriving DecidableEq

/-- Where the goroutine that `Produce` starts is.  The connection is hijacked
when it starts. -/
inductive Reader where
  | absent
  | reading
  | leaving
  | ended
  deriving DecidableEq

/-- A request with its goroutines.  `pending` are the messages that the broker
has delivered and no callback and no `NextMsg` has taken, and `channel` are
the results in the buffer of the channel. -/
structure Request where
  kind : Kind
  clientClosed : Bool
  contextDone : Bool
  connClosed : Bool
  handler : Handler
  callback : Callback
  reader : Reader
  subscribed : Bool
  pending : List Bytes
  channel : List Bytes
  channelClosed : Bool
  deriving DecidableEq

/-- A request that has arrived. -/
def Request.new (kind : Kind) : Request where
  kind
  clientClosed := false
  contextDone := false
  connClosed := false
  handler := .preparing
  callback := .idle
  reader := .absent
  subscribed := false
  pending := []
  channel := []
  channelClosed := false

/-- The steps of the client and the broker, of the HTTP server, of the
handler, of the callback and of the reader. -/
inductive Action where
  | closeClient
  | deliver (data : Bytes)
  | cancelContext
  | answer
  | upgrade
  | subscribe
  | nextMsg
  | noReply
  | contextDone
  | receive
  | write (succeeds : Bool)
  | unsubscribe
  | closeChannel
  | closeConn
  | startCallback
  | copy
  | send
  | stopReading
  | closeReader
  deriving DecidableEq

namespace Request

/-- The handler runs its loop over the channel of `Subscribe`. -/
def streams (request : Request) : Bool :=
  request.kind ≠ .sync

/-- Where a handler goes when it returns: the one of `WS` has deferred
`conn.Close` from the upgrade on. -/
def leave (request : Request) : Handler :=
  if request.reader = .absent then .returned else .hangingUp

/-- The step of a request, if it is there to be taken. -/
def step (request : Request) : Action → Option Request
  | .closeClient =>
      if request.clientClosed then none else some { request with clientClosed := true }
  | .deliver data =>
      if request.subscribed then
        some { request with pending := request.pending ++ [data] }
      else
        none
  -- The server notices that the client has gone while it has the connection.
  | .cancelContext =>
      if request.clientClosed ∧ request.reader = .absent then
        some { request with contextDone := true }
      else
        none
  -- Activation, the method, the submission, the upgrade or the subscription
  -- failed, or `Sync` answered without the broker.
  | .answer =>
      if request.handler = .preparing then
        some { request with handler := request.leave }
      else
        none
  | .upgrade =>
      if request.handler = .preparing ∧ request.kind = .ws ∧ request.reader = .absent then
        some { request with reader := .reading }
      else
        none
  | .subscribe =>
      if request.handler = .preparing ∧ (request.kind = .ws → request.reader ≠ .absent) then
        some { request with handler := .waiting, subscribed := true }
      else
        none
  | .nextMsg =>
      match request.pending with
      | [] => none
      | _ :: rest =>
          if request.handler = .waiting ∧ request.kind = .sync then
            some { request with handler := .returned, pending := rest }
          else
            none
  -- The timeout has passed, or it is improperly configured.
  | .noReply =>
      if request.handler = .waiting ∧ request.kind = .sync then
        some { request with handler := .returned }
      else
        none
  | .contextDone =>
      if request.handler = .waiting ∧ request.streams ∧ request.contextDone then
        some { request with handler := .unsubscribing }
      else
        none
  | .receive =>
      if request.handler = .waiting ∧ request.streams then
        match request.channel with
        | res :: rest => some { request with handler := .writing res, channel := rest }
        | [] =>
            if request.channelClosed then
              some { request with handler := .unsubscribing }
            else
              none
      else
        none
  | .write succeeds =>
      match request.handler with
      | .writing _ =>
          if request.kind = .ws ∧ !succeeds then
            some { request with handler := .unsubscribing }
          else if request.kind = .ws ∧ request.connClosed then
            none
          else
            some { request with handler := .waiting }
      | _ => none
  -- What waits for the callback is dropped, but a callback goes on.
  | .unsubscribe =>
      if request.handler = .unsubscribing then
        some { request with handler := .closing, subscribed := false, pending := [] }
      else
        none
  | .closeChannel =>
      if request.handler = .closing then
        some { request with handler := request.leave, channelClosed := true }
      else
        none
  | .closeConn =>
      if request.handler = .hangingUp then
        some { request with handler := .returned, connClosed := true }
      else
        none
  | .startCallback =>
      match request.pending with
      | [] => none
      | data :: rest =>
          if request.streams ∧ request.subscribed ∧ request.callback = .idle then
            some { request with callback := .running data, pending := rest }
          else
            none
  | .copy =>
      match request.callback with
      | .running data => some { request with callback := .copied data }
      | _ => none
  -- A full channel drops the result.
  | .send =>
      match request.callback with
      | .copied payload =>
          if request.channel.length < 32 then
            some { request with callback := .idle, channel := request.channel ++ [payload] }
          else
            some { request with callback := .idle }
      | _ => none
  -- The client is gone, a message cannot be read, or one cannot be published.
  | .stopReading =>
      if request.reader = .reading then some { request with reader := .leaving } else none
  | .closeReader =>
      if request.reader = .leaving then
        some { request with reader := .ended, connClosed := true }
      else
        none

/-- A send on a closed channel panics, also in a `select` with a default. -/
def panics (request : Request) (action : Action) : Bool :=
  action = .send && request.channelClosed

end Request

/-- All requests of the ingestor.  A request that has not arrived is one that
has not taken a step. -/
structure State where
  requests : Nat → Request
  panicked : Bool

/-- An ingestor that has started. -/
def start (kinds : Nat → Kind) : State where
  requests id := .new (kinds id)
  panicked := false

/-- A panic ends the process with all its goroutines. -/
def State.step (state : State) (id : Nat) (action : Action) : Option State :=
  if state.panicked then
    none
  else
    ((state.requests id).step action).map fun after =>
      { requests := Function.update state.requests id after
        panicked := (state.requests id).panics action }

/-- The steps of requests, in the order in which they happen. -/
abbrev Events : Type := List (Nat × Action)

/-- The state after some steps, if they can be taken. -/
def State.run (state : State) : Events → Option State
  | [] => some state
  | event :: events => (state.step event.1 event.2).bind (·.run events)

/-- Every step of a run meets a condition on the request that takes it. -/
def Meets (condition : Action → Request → Prop) (state : State) : Events → Prop
  | [] => True
  | event :: events =>
      condition event.2 (state.requests event.1) ∧
        ∀ after ∈ state.step event.1 event.2, Meets condition after events

instance decidableMeets (condition : Action → Request → Prop)
    [decidableCondition : ∀ action request, Decidable (condition action request)] :
    (state : State) → (events : Events) → Decidable (Meets condition state events)
  | _, [] => .isTrue trivial
  | state, event :: events =>
      haveI : DecidablePred (Meets condition · events) := fun after =>
        decidableMeets condition after events
      inferInstanceAs (Decidable (condition event.2 (state.requests event.1) ∧
        ∀ after ∈ state.step event.1 event.2, Meets condition after events))

end Goroutines

end Ingestor

end Litefunctions
