import Litefunctions.SubjectPatterns
import Mathlib.Logic.Function.Basic

/-!
# A message broker

Publishing hands a message to the subscriptions that exist at that moment and
match its subject, and to the streams that retain its subject.  A subscription
sees nothing that was published before it; a consumer of a stream reads the
retained messages that match its filter from the first one on.
-/

namespace Litefunctions

open Subject

/-- A subscription with everything delivered to it, and what its holder has
not taken yet.  A bounded subscription drops what finds no room. -/
structure Subscription (Message : Type) where
  pattern : String
  capacity : Option Nat
  received : List Message
  pending : List Message

/-- A stream retains the messages on its subjects. -/
structure Stream (Message : Type) where
  subjects : List String
  messages : List (String × Message)

/-- A reader of a stream; `position` is where it goes on reading. -/
structure PullConsumer where
  stream : String
  filter : String
  position : Nat

structure Broker (Message : Type) where
  nextId : Nat
  subscription : Nat → Option (Subscription Message)
  stream : String → Option (Stream Message)
  consumer : Nat → Option PullConsumer
  unused : ∀ id, nextId ≤ id → subscription id = none

variable {Message : Type}

namespace Subscription

def hasRoom (subscription : Subscription Message) : Bool :=
  match subscription.capacity with
  | none => true
  | some capacity => subscription.pending.length < capacity

def deliver (subject : String) (message : Message) (subscription : Subscription Message) :
    Subscription Message :=
  if matchesPattern subscription.pattern subject then
    { subscription with
      received := subscription.received ++ [message]
      pending :=
        if subscription.hasRoom then subscription.pending ++ [message]
        else subscription.pending }
  else
    subscription

theorem deliver_pattern (subject : String) (message : Message)
    (subscription : Subscription Message) :
    (subscription.deliver subject message).pattern = subscription.pattern := by
  unfold deliver
  split <;> rfl

end Subscription

namespace Stream

def retains (stream : Stream Message) (subject : String) : Bool :=
  stream.subjects.any fun pattern => matchesPattern pattern subject

def retain (subject : String) (message : Message) (stream : Stream Message) : Stream Message :=
  if stream.retains subject then
    { stream with messages := stream.messages ++ [(subject, message)] }
  else
    stream

end Stream

namespace Broker

/-- A broker that nobody has used. -/
def empty : Broker Message where
  nextId := 0
  subscription _ := none
  stream _ := none
  consumer _ := none
  unused _ _ := rfl

def publish (subject : String) (message : Message) (broker : Broker Message) :
    Broker Message where
  nextId := broker.nextId
  subscription id := (broker.subscription id).map (·.deliver subject message)
  stream name := (broker.stream name).map (·.retain subject message)
  consumer := broker.consumer
  unused id bound := by rw [broker.unused id bound]; rfl

def subscribe (pattern : String) (capacity : Option Nat) (broker : Broker Message) :
    Nat × Broker Message :=
  (broker.nextId,
    { broker with
      nextId := broker.nextId + 1
      subscription :=
        Function.update broker.subscription broker.nextId (some ⟨pattern, capacity, [], []⟩)
      unused := by
        intro id bound
        rw [Function.update_of_ne (by omega)]
        exact broker.unused id (by omega) })

def unsubscribe (id : Nat) (broker : Broker Message) : Broker Message :=
  { broker with
    subscription := Function.update broker.subscription id none
    unused := by
      intro other bound
      by_cases same : other = id
      · rw [same, Function.update_self]
      · rw [Function.update_of_ne same]
        exact broker.unused other bound }

/-- Take the oldest message that waits for the holder of a subscription. -/
def take (id : Nat) (broker : Broker Message) : Option (Message × Broker Message) :=
  match found : broker.subscription id with
  | none => none
  | some subscription =>
      match subscription.pending with
      | [] => none
      | message :: rest =>
          some (message,
            { broker with
              subscription :=
                Function.update broker.subscription id (some { subscription with pending := rest })
              unused := by
                intro other bound
                have unusedOther := broker.unused other bound
                rw [Function.update_of_ne, unusedOther]
                rintro rfl
                rw [unusedOther] at found
                cases found })

/-- Create a stream unless there is one of this name. -/
def addStream (name : String) (subjects : List String) (broker : Broker Message) :
    Broker Message :=
  match broker.stream name with
  | some _ => broker
  | none => { broker with stream := Function.update broker.stream name (some ⟨subjects, []⟩) }

/-- A new consumer of a stream, which starts at its first retained message. -/
def pullSubscribe (stream filter : String) (broker : Broker Message) :
    Option (Nat × Broker Message) :=
  match broker.stream stream with
  | none => none
  | some _ =>
      some (broker.nextId,
        { broker with
          nextId := broker.nextId + 1
          consumer := Function.update broker.consumer broker.nextId (some ⟨stream, filter, 0⟩)
          unused := fun id bound => broker.unused id (by omega) })

/-- The first message that matches the filter, and how many lie before it. -/
def firstMatch (filter : String) : List (String × Message) → Option (Nat × Message)
  | [] => none
  | (subject, message) :: rest =>
      if matchesPattern filter subject then some (0, message)
      else (firstMatch filter rest).map fun (skipped, found) => (skipped + 1, found)

def fetch (id : Nat) (broker : Broker Message) : Option (Message × Broker Message) := do
  let consumer ← broker.consumer id
  let stream ← broker.stream consumer.stream
  let (skipped, message) ← firstMatch consumer.filter (stream.messages.drop consumer.position)
  return (message,
    { broker with
      consumer := Function.update broker.consumer id
        (some { consumer with position := consumer.position + skipped + 1 }) })

/-! ### What the operations do to a subscription -/

/-- The pattern of a subscription, while it exists. -/
def patternOf (broker : Broker Message) (id : Nat) : Option String :=
  (broker.subscription id).map (·.pattern)

/-- Everything that was delivered to a subscription. -/
def received (broker : Broker Message) (id : Nat) : List Message :=
  match broker.subscription id with
  | none => []
  | some subscription => subscription.received

variable {broker after : Broker Message} {id other : Nat} {message : Message} {subject : String}

theorem patternOf_eq_none_of_le (bound : broker.nextId ≤ id) : broker.patternOf id = none := by
  simp [patternOf, broker.unused id bound]

@[simp]
theorem patternOf_publish : (broker.publish subject message).patternOf id = broker.patternOf id := by
  simp only [patternOf, publish, Option.map_map]
  congr 1
  funext subscription
  exact subscription.deliver_pattern subject message

theorem patternOf_subscribe {pattern : String} {capacity : Option Nat} :
    (broker.subscribe pattern capacity).2.patternOf id =
      if id = broker.nextId then some pattern else broker.patternOf id := by
  by_cases new : id = broker.nextId
  · simp [patternOf, subscribe, new]
  · simp [patternOf, subscribe, new]

theorem patternOf_unsubscribe :
    (broker.unsubscribe other).patternOf id = if id = other then none else broker.patternOf id := by
  by_cases same : id = other
  · simp [patternOf, unsubscribe, same]
  · simp [patternOf, unsubscribe, same]

theorem patternOf_take (id : Nat) (taken : broker.take other = some (message, after)) :
    after.patternOf id = broker.patternOf id ∧ after.nextId = broker.nextId := by
  unfold take at taken
  split at taken
  · cases taken
  · next subscription found =>
      split at taken
      · cases taken
      · obtain ⟨rfl, rfl⟩ := Prod.mk.inj (Option.some.inj taken)
        refine ⟨?_, rfl⟩
        by_cases same : id = other
        · simp [patternOf, same, found]
        · simp [patternOf, same]

theorem patternOf_fetch (id : Nat) (fetched : broker.fetch other = some (message, after)) :
    after.patternOf id = broker.patternOf id ∧ after.nextId = broker.nextId := by
  simp only [fetch, Option.bind_eq_bind, Option.bind_eq_some_iff] at fetched
  obtain ⟨consumer, -, stream, -, ⟨skipped, found⟩, -, same⟩ := fetched
  obtain ⟨rfl, rfl⟩ := Prod.mk.inj (Option.some.inj same)
  exact ⟨rfl, rfl⟩

theorem patternOf_addStream (broker : Broker Message) (name : String) (subjects : List String)
    (id : Nat) :
    (broker.addStream name subjects).patternOf id = broker.patternOf id ∧
      (broker.addStream name subjects).nextId = broker.nextId := by
  unfold addStream
  split <;> exact ⟨rfl, rfl⟩

theorem patternOf_pullSubscribe {stream filter : String} (id : Nat)
    (subscribed : broker.pullSubscribe stream filter = some (other, after)) :
    after.patternOf id = broker.patternOf id ∧ after.nextId = broker.nextId + 1 := by
  unfold pullSubscribe at subscribed
  split at subscribed
  · cases subscribed
  · obtain ⟨-, rfl⟩ := Prod.mk.inj (Option.some.inj subscribed)
    exact ⟨rfl, rfl⟩

/-- A message is delivered exactly to the existing subscriptions that match
its subject. -/
theorem received_publish_eq_append_iff :
    (broker.publish subject message).received id = broker.received id ++ [message] ↔
      ∃ pattern, broker.patternOf id = some pattern ∧ matchesPattern pattern subject = true := by
  cases found : broker.subscription id with
  | none => simp [received, publish, patternOf, found]
  | some subscription =>
      by_cases isMatch : matchesPattern subscription.pattern subject = true
      · simp [received, publish, patternOf, found, Subscription.deliver, isMatch]
      · simp [received, publish, patternOf, found, Subscription.deliver, isMatch]

end Broker

/-! ### Calls to a broker -/

/-- A call to a broker. -/
inductive BrokerCall (Message : Type) where
  | publish (subject : String) (message : Message)
  | subscribe (pattern : String) (capacity : Option Nat)
  | unsubscribe (id : Nat)
  | receive (id : Nat)
  | addStream (name : String) (subjects : List String)
  | pullSubscribe (stream filter : String)
  | fetch (id : Nat)

namespace BrokerCall

/-- What a call answers: whether it succeeded, the new subscription, or a
message unless the wait for one has ended without any. -/
abbrev Response : BrokerCall Message → Type
  | publish _ _ => Bool
  | subscribe _ _ => Option Nat
  | unsubscribe _ => Unit
  | receive _ => Option Message
  | addStream _ _ => Bool
  | pullSubscribe _ _ => Option Nat
  | fetch _ => Option Message

/-- The answer to a call; `refused` says whether the call fails or, for one
that waits, whether its wait is over.  There is no answer while a call waits. -/
def execute (refused : Bool) : (call : BrokerCall Message) → Broker Message →
    Option (call.Response × Broker Message)
  | publish subject message, broker =>
      if refused then some (false, broker) else some (true, broker.publish subject message)
  | subscribe pattern capacity, broker =>
      if refused then some (none, broker)
      else
        let subscribed := broker.subscribe pattern capacity
        some (some subscribed.1, subscribed.2)
  | unsubscribe id, broker => some ((), broker.unsubscribe id)
  | receive id, broker =>
      if refused then some (none, broker)
      else (broker.take id).map fun (message, after) => (some message, after)
  | addStream name subjects, broker =>
      if refused then some (false, broker) else some (true, broker.addStream name subjects)
  | pullSubscribe stream filter, broker =>
      if refused then some (none, broker)
      else
        match broker.pullSubscribe stream filter with
        | none => some (none, broker)
        | some (id, after) => some (some id, after)
  | fetch id, broker =>
      if refused then some (none, broker)
      else (broker.fetch id).map fun (message, after) => (some message, after)

variable {refused : Bool} {broker after : Broker Message}

/-- What a call did to the subscriptions. -/
def Subscribed (broker after : Broker Message) :
    (call : BrokerCall Message) → call.Response → Prop
  | subscribe pattern _, some id =>
      id = broker.nextId ∧ id < after.nextId ∧ after.patternOf id = some pattern ∧
        ∀ other, other ≠ id → after.patternOf other = broker.patternOf other
  | unsubscribe id, _ =>
      after.patternOf id = none ∧
        ∀ other, other ≠ id → after.patternOf other = broker.patternOf other
  | _, _ => ∀ other, after.patternOf other = broker.patternOf other

theorem execute_subscribed {call : BrokerCall Message} {response : call.Response}
    (executed : call.execute refused broker = some (response, after)) :
    broker.nextId ≤ after.nextId ∧ Subscribed broker after call response := by
  have kept : ∀ (call : BrokerCall Message) {response other : call.Response},
      some (other, broker) = some (response, after) →
      broker.nextId ≤ after.nextId ∧ ∀ id, after.patternOf id = broker.patternOf id := by
    intro call response other same
    obtain ⟨-, rfl⟩ := Prod.mk.inj (Option.some.inj same)
    exact ⟨le_rfl, fun _ => rfl⟩
  cases call with
  | publish subject message =>
      simp only [execute] at executed
      split at executed
      · exact kept (.publish subject message) executed
      · obtain ⟨-, rfl⟩ := Prod.mk.inj (Option.some.inj executed)
        exact ⟨le_rfl, fun _ => Broker.patternOf_publish⟩
  | subscribe pattern capacity =>
      simp only [execute] at executed
      split at executed
      · obtain ⟨rfl, rfl⟩ := Prod.mk.inj (Option.some.inj executed)
        exact ⟨le_rfl, fun _ => rfl⟩
      · obtain ⟨rfl, rfl⟩ := Prod.mk.inj (Option.some.inj executed)
        refine ⟨Nat.le_succ _, rfl, Nat.lt_succ_self _, ?_, ?_⟩
        · rw [Broker.patternOf_subscribe]
          exact if_pos rfl
        · intro other different
          rw [Broker.patternOf_subscribe]
          exact if_neg different
  | unsubscribe id =>
      obtain ⟨-, rfl⟩ := Prod.mk.inj (Option.some.inj executed)
      refine ⟨le_rfl, ?_, ?_⟩
      · rw [Broker.patternOf_unsubscribe, if_pos rfl]
      · intro other different
        rw [Broker.patternOf_unsubscribe, if_neg different]
  | receive id =>
      simp only [execute] at executed
      split at executed
      · exact kept (.receive id) executed
      · obtain ⟨⟨message, next⟩, taken, same⟩ := Option.map_eq_some_iff.mp executed
        obtain ⟨-, rfl⟩ := Prod.mk.inj same
        have unchanged := fun other => Broker.patternOf_take other taken
        exact ⟨(unchanged 0).2.ge, fun other => (unchanged other).1⟩
  | addStream name subjects =>
      simp only [execute] at executed
      split at executed
      · exact kept (.addStream name subjects) executed
      · obtain ⟨-, rfl⟩ := Prod.mk.inj (Option.some.inj executed)
        have unchanged := Broker.patternOf_addStream broker name subjects
        exact ⟨(unchanged 0).2.ge, fun other => (unchanged other).1⟩
  | pullSubscribe stream filter =>
      simp only [execute] at executed
      split at executed
      · exact kept (.pullSubscribe stream filter) executed
      · split at executed
        · exact kept (.pullSubscribe stream filter) executed
        · next id next subscribed =>
            obtain ⟨-, rfl⟩ := Prod.mk.inj (Option.some.inj executed)
            have unchanged := fun other => Broker.patternOf_pullSubscribe other subscribed
            exact ⟨(unchanged 0).2 ▸ Nat.le_succ _, fun other => (unchanged other).1⟩
  | fetch id =>
      simp only [execute] at executed
      split at executed
      · exact kept (.fetch id) executed
      · obtain ⟨⟨message, next⟩, fetched, same⟩ := Option.map_eq_some_iff.mp executed
        obtain ⟨-, rfl⟩ := Prod.mk.inj same
        have unchanged := fun other => Broker.patternOf_fetch other fetched
        exact ⟨(unchanged 0).2.ge, fun other => (unchanged other).1⟩

end BrokerCall

end Litefunctions
