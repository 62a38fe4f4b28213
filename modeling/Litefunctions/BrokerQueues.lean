import Litefunctions.MessageBroker
import Litefunctions.Programs

/-!
# What is taken from subscriptions and streams

The messages taken from a subscription were published to its pattern after it
was made, and are taken in the order of their publication.  None is left out as
long as no more are published than the subscription has room for.  What is
fetched from a stream was published to the filter of its consumer at any time.
-/

namespace Litefunctions

open Subject

variable {Message : Type}

namespace Broker

/-- What waits for the holder of a subscription. -/
def waiting (broker : Broker Message) (id : Nat) : List Message :=
  match broker.subscription id with
  | none => []
  | some subscription => subscription.pending

theorem waiting_eq_of_subscription {broker : Broker Message} {id : Nat}
    {subscription : Subscription Message} (found : broker.subscription id = some subscription) :
    broker.waiting id = subscription.pending := by
  simp only [waiting, found]

theorem waiting_eq_nil {broker : Broker Message} {id : Nat}
    (gone : broker.subscription id = none) : broker.waiting id = [] := by
  simp only [waiting, gone]

theorem take_spec {broker after : Broker Message} {id : Nat} {message : Message}
    (taken : broker.take id = some (message, after)) :
    ∃ subscription rest, broker.subscription id = some subscription ∧
      subscription.pending = message :: rest ∧ after.nextId = broker.nextId ∧
      after.subscription =
        Function.update broker.subscription id (some { subscription with pending := rest }) ∧
      after.stream = broker.stream ∧ after.consumer = broker.consumer := by
  unfold take at taken
  split at taken
  · cases taken
  · next subscription found =>
      split at taken
      · cases taken
      · next first rest pendingEq =>
          obtain ⟨rfl, rfl⟩ := Prod.mk.inj (Option.some.inj taken)
          exact ⟨subscription, rest, found, pendingEq, rfl, rfl, rfl, rfl⟩

theorem pullSubscribe_spec {broker after : Broker Message} {stream filter : String} {id : Nat}
    (subscribes : broker.pullSubscribe stream filter = some (id, after)) :
    id = broker.nextId ∧ after =
      { broker with
        nextId := broker.nextId + 1
        consumer := Function.update broker.consumer broker.nextId (some ⟨stream, filter, 0⟩)
        unused := fun id bound => broker.unused id (Nat.le_of_succ_le bound) } := by
  unfold pullSubscribe at subscribes
  split at subscribes
  · cases subscribes
  · obtain ⟨rfl, rfl⟩ := Prod.mk.inj (Option.some.inj subscribes)
    exact ⟨rfl, rfl⟩

theorem firstMatch_spec {filter : String} {message : Message} :
    ∀ {messages : List (String × Message)} {skipped : Nat},
      firstMatch filter messages = some (skipped, message) →
      ∃ subject, (subject, message) ∈ messages ∧ matchesPattern filter subject = true
  | [], _, found => by cases found
  | (subject, other) :: messages, skipped, found => by
      simp only [firstMatch] at found
      split at found
      · next isMatch =>
          obtain ⟨-, rfl⟩ := Prod.mk.inj (Option.some.inj found)
          exact ⟨subject, List.mem_cons_self, isMatch⟩
      · obtain ⟨⟨later, _⟩, foundLater, same⟩ := Option.map_eq_some_iff.mp found
        obtain ⟨-, rfl⟩ := Prod.mk.inj same
        obtain ⟨subject, member, isMatch⟩ := firstMatch_spec foundLater
        exact ⟨subject, List.mem_cons_of_mem _ member, isMatch⟩

theorem fetch_spec {broker after : Broker Message} {id : Nat} {message : Message}
    (fetches : broker.fetch id = some (message, after)) :
    ∃ consumer stream subject position, broker.consumer id = some consumer ∧
      broker.stream consumer.stream = some stream ∧ (subject, message) ∈ stream.messages ∧
      matchesPattern consumer.filter subject = true ∧ after =
        { broker with
          consumer := Function.update broker.consumer id (some { consumer with position }) } := by
  simp only [fetch, Option.bind_eq_bind, Option.bind_eq_some_iff] at fetches
  obtain ⟨consumer, consumerFound, stream, streamFound, ⟨skipped, _⟩, found, same⟩ := fetches
  obtain ⟨rfl, rfl⟩ := Prod.mk.inj (Option.some.inj same)
  obtain ⟨subject, member, isMatch⟩ := firstMatch_spec found
  exact ⟨consumer, stream, subject, _, consumerFound, streamFound, List.mem_of_mem_drop member,
    isMatch, rfl⟩

end Broker

namespace BrokerCall

/-- The message that an answered call has published to a pattern. -/
def publishedTo (pattern : String) : (call : BrokerCall Message) → call.Response → Option Message
  | publish subject message, true =>
      if matchesPattern pattern subject then some message else none
  | _, _ => none

/-- The message that an answered call has taken from a subscription. -/
def takenFrom (id : Nat) : (call : BrokerCall Message) → call.Response → Option Message
  | receive other, some message => if other = id then some message else none
  | _, _ => none

variable (Message) in
/-- A call to a broker with its answer. -/
abbrev Answered : Type :=
  Program.Answered (BrokerCall Message) Response

/-- The messages that a history publishes to a pattern. -/
def published (pattern : String) (history : List (Answered Message)) : List Message :=
  history.filterMap fun answered => publishedTo pattern answered.1 answered.2

/-- The messages that a history takes from a subscription. -/
def taken (id : Nat) (history : List (Answered Message)) : List Message :=
  history.filterMap fun answered => takenFrom id answered.1 answered.2

/-- The answers that a broker can give to these calls. -/
def Leads : Broker Message → List (Answered Message) → Broker Message → Prop
  | broker, [], last => broker = last
  | broker, answered :: history, last =>
      ∃ refused after, answered.1.execute refused broker = some (answered.2, after) ∧
        Leads after history last

/-- The messages fit into the room of a subscription. -/
def Fits (capacity : Option Nat) (messages : List Message) : Prop :=
  ∀ room, capacity = some room → messages.length ≤ room

theorem Fits.left {capacity : Option Nat} {messages more : List Message}
    (fits : Fits capacity (messages ++ more)) : Fits capacity messages := by
  intro room isRoom
  have bound := fits room isRoom
  rw [List.length_append] at bound
  omega

section Histories

variable {pattern : String} {id : Nat} {history more : List (Answered Message)}

@[simp]
theorem published_append :
    published pattern (history ++ more) = published pattern history ++ published pattern more :=
  List.filterMap_append

@[simp]
theorem taken_append : taken id (history ++ more) = taken id history ++ taken id more :=
  List.filterMap_append

theorem published_singleton (call : BrokerCall Message) (response : call.Response) :
    published pattern [⟨call, response⟩] = (publishedTo pattern call response).toList := by
  cases answer : publishedTo pattern call response <;> simp [published, answer]

theorem mem_published_iff {message : Message} :
    message ∈ published pattern history ↔
      ∃ subject, ⟨publish subject message, true⟩ ∈ history ∧
        matchesPattern pattern subject = true := by
  simp only [published, List.mem_filterMap]
  constructor
  · rintro ⟨⟨call, response⟩, member, found⟩
    cases call with
    | publish subject other =>
        cases response with
        | false => cases found
        | true =>
            simp only [publishedTo, Option.ite_none_right_eq_some, Option.some.injEq] at found
            obtain ⟨isMatch, rfl⟩ := found
            exact ⟨subject, member, isMatch⟩
    | _ => cases found
  · rintro ⟨subject, member, isMatch⟩
    exact ⟨_, member, by simp [publishedTo, isMatch]⟩

theorem taken_singleton (call : BrokerCall Message) (response : call.Response) :
    taken id [⟨call, response⟩] = (takenFrom id call response).toList := by
  cases answer : takenFrom id call response <;> simp [taken, answer]

end Histories

/-- What a call does that is not refused. -/
inductive Done (broker : Broker Message) :
    (call : BrokerCall Message) → call.Response → Broker Message → Prop
  | publish (subject : String) (message : Message) :
      Done broker (.publish subject message) true (broker.publish subject message)
  | subscribe (pattern : String) (capacity : Option Nat) :
      Done broker (.subscribe pattern capacity) (some broker.nextId)
        (broker.subscribe pattern capacity).2
  | unsubscribe (id : Nat) : Done broker (.unsubscribe id) () (broker.unsubscribe id)
  | receive {id : Nat} {message : Message} {after : Broker Message}
      (takes : broker.take id = some (message, after)) :
      Done broker (.receive id) (some message) after
  | addStream (name : String) (subjects : List String) :
      Done broker (.addStream name subjects) true (broker.addStream name subjects)
  | pullSubscribe {stream filter : String} {id : Nat} {after : Broker Message}
      (subscribes : broker.pullSubscribe stream filter = some (id, after)) :
      Done broker (.pullSubscribe stream filter) (some id) after
  | fetch {id : Nat} {message : Message} {after : Broker Message}
      (fetches : broker.fetch id = some (message, after)) :
      Done broker (.fetch id) (some message) after

/-- A refused call changes nothing, and publishes and takes nothing. -/
theorem execute_cases {call : BrokerCall Message} {response : call.Response} {refused : Bool}
    {broker after : Broker Message}
    (executed : call.execute refused broker = some (response, after)) :
    Done broker call response after ∨
      (after = broker ∧ (∀ pattern, publishedTo pattern call response = none) ∧
        ∀ id, takenFrom id call response = none) := by
  cases call with
  | publish subject message =>
      simp only [execute] at executed
      split at executed <;> obtain ⟨rfl, rfl⟩ := Prod.mk.inj (Option.some.inj executed)
      · exact .inr ⟨rfl, fun _ => rfl, fun _ => rfl⟩
      · exact .inl (.publish subject message)
  | subscribe pattern capacity =>
      simp only [execute] at executed
      split at executed <;> obtain ⟨rfl, rfl⟩ := Prod.mk.inj (Option.some.inj executed)
      · exact .inr ⟨rfl, fun _ => rfl, fun _ => rfl⟩
      · exact .inl (.subscribe pattern capacity)
  | unsubscribe id =>
      obtain ⟨-, rfl⟩ := Prod.mk.inj (Option.some.inj executed)
      exact .inl (.unsubscribe id)
  | receive id =>
      simp only [execute] at executed
      split at executed
      · obtain ⟨rfl, rfl⟩ := Prod.mk.inj (Option.some.inj executed)
        exact .inr ⟨rfl, fun _ => rfl, fun _ => rfl⟩
      · obtain ⟨⟨message, next⟩, takes, same⟩ := Option.map_eq_some_iff.mp executed
        obtain ⟨rfl, rfl⟩ := Prod.mk.inj same
        exact .inl (.receive takes)
  | addStream name subjects =>
      simp only [execute] at executed
      split at executed <;> obtain ⟨rfl, rfl⟩ := Prod.mk.inj (Option.some.inj executed)
      · exact .inr ⟨rfl, fun _ => rfl, fun _ => rfl⟩
      · exact .inl (.addStream name subjects)
  | pullSubscribe stream filter =>
      simp only [execute] at executed
      split at executed
      · obtain ⟨rfl, rfl⟩ := Prod.mk.inj (Option.some.inj executed)
        exact .inr ⟨rfl, fun _ => rfl, fun _ => rfl⟩
      · split at executed
        · obtain ⟨rfl, rfl⟩ := Prod.mk.inj (Option.some.inj executed)
          exact .inr ⟨rfl, fun _ => rfl, fun _ => rfl⟩
        · next subscribes =>
            obtain ⟨rfl, rfl⟩ := Prod.mk.inj (Option.some.inj executed)
            exact .inl (.pullSubscribe subscribes)
  | fetch id =>
      simp only [execute] at executed
      split at executed
      · obtain ⟨rfl, rfl⟩ := Prod.mk.inj (Option.some.inj executed)
        exact .inr ⟨rfl, fun _ => rfl, fun _ => rfl⟩
      · obtain ⟨⟨message, next⟩, fetches, same⟩ := Option.map_eq_some_iff.mp executed
        obtain ⟨rfl, rfl⟩ := Prod.mk.inj same
        exact .inl (.fetch fetches)

/-- What was taken from a subscription and waits in it, after the calls that
followed its creation. -/
structure Account (pattern : String) (capacity : Option Nat) (id : Nat)
    (since : List (Answered Message)) (broker : Broker Message) : Prop where
  given : id < broker.nextId
  ordered : List.Sublist (taken id since ++ broker.waiting id) (published pattern since)
  complete : Fits capacity (published pattern since) →
    taken id since ++ broker.waiting id <+: published pattern since
  live : ∀ subscription, broker.subscription id = some subscription →
    subscription.pattern = pattern ∧ subscription.capacity = capacity ∧
      (Fits capacity (published pattern since) →
        taken id since ++ subscription.pending = published pattern since)

section Account

variable {pattern : String} {capacity : Option Nat} {id : Nat}
variable {since history : List (Answered Message)} {broker after last : Broker Message}

theorem account_subscribe (broker : Broker Message) (pattern : String) (capacity : Option Nat) :
    Account pattern capacity broker.nextId [] (broker.subscribe pattern capacity).2 := by
  have found : (broker.subscribe pattern capacity).2.subscription broker.nextId =
      some ⟨pattern, capacity, [], []⟩ :=
    Function.update_self ..
  have waiting := Broker.waiting_eq_of_subscription found
  refine ⟨Nat.lt_succ_self _, ?_, ?_, ?_⟩
  · rw [waiting]
    exact List.nil_sublist _
  · intro _
    rw [waiting]
    exact List.nil_prefix
  · intro subscription isFound
    obtain rfl := Option.some.inj (found.symm.trans isFound)
    exact ⟨rfl, rfl, fun _ => rfl⟩

/-- A call that leaves the subscription alone. -/
theorem Account.untouched {call : BrokerCall Message} {response : call.Response}
    (account : Account pattern capacity id since broker) (grows : broker.nextId ≤ after.nextId)
    (same : after.subscription id = broker.subscription id)
    (publishesNone : publishedTo pattern call response = none)
    (takesNone : takenFrom id call response = none) :
    Account pattern capacity id (since ++ [⟨call, response⟩]) after := by
  have waiting : after.waiting id = broker.waiting id := by
    simp only [Broker.waiting, same]
  obtain ⟨given, ordered, complete, live⟩ := account
  constructor
  · exact lt_of_lt_of_le given grows
  all_goals
    simp only [published_append, taken_append, published_singleton, taken_singleton,
      publishesNone, takesNone, Option.toList_none, List.append_nil, waiting, same]
    assumption

theorem Account.publish (account : Account pattern capacity id since broker) (subject : String)
    (message : Message) :
    Account pattern capacity id (since ++ [⟨.publish subject message, true⟩])
      (broker.publish subject message) := by
  obtain ⟨given, ordered, complete, live⟩ := account
  have takesNone : taken id (since ++ [⟨BrokerCall.publish subject message, true⟩]) =
      taken id since := by
    rw [taken_append, taken_singleton]
    exact List.append_nil _
  have publishes : published pattern (since ++ [⟨BrokerCall.publish subject message, true⟩]) =
      published pattern since ++
        if matchesPattern pattern subject then [message] else [] := by
    rw [published_append, published_singleton]
    simp only [publishedTo]
    split <;> rfl
  cases found : broker.subscription id with
  | none =>
      have still : (broker.publish subject message).subscription id = none := by
        simp [Broker.publish, found]
      rw [Broker.waiting_eq_nil found] at ordered complete
      refine ⟨given, ?_, ?_, ?_⟩
      · rw [takesNone, publishes, Broker.waiting_eq_nil still]
        exact ordered.trans (List.sublist_append_left _ _)
      · rw [takesNone, publishes, Broker.waiting_eq_nil still]
        exact fun fits => (complete fits.left).trans (List.prefix_append _ _)
      · intro subscription isFound
        rw [still] at isFound
        cases isFound
  | some subscription =>
      obtain ⟨rfl, rfl, exactly⟩ := live subscription found
      rw [Broker.waiting_eq_of_subscription found] at ordered complete
      have delivered : (broker.publish subject message).subscription id =
          some (subscription.deliver subject message) := by
        simp [Broker.publish, found]
      have waiting := Broker.waiting_eq_of_subscription delivered
      by_cases isMatch : matchesPattern subscription.pattern subject = true
      · rw [if_pos isMatch] at publishes
        have all : Fits subscription.capacity (published subscription.pattern since ++ [message]) →
            taken id since ++ (subscription.deliver subject message).pending =
              published subscription.pattern since ++ [message] := by
          intro fits
          have before := exactly fits.left
          have hasRoom : subscription.hasRoom = true := by
            unfold Subscription.hasRoom
            split
            · rfl
            · next room isRoom =>
                have bound := fits room isRoom
                rw [← before] at bound
                simp only [List.length_append, List.length_singleton] at bound
                exact decide_eq_true (by omega)
          simp only [Subscription.deliver, isMatch, hasRoom, if_true]
          rw [← List.append_assoc, before]
        refine ⟨given, ?_, ?_, ?_⟩
        · rw [takesNone, publishes, waiting]
          simp only [Subscription.deliver, isMatch, if_true]
          split
          · rw [← List.append_assoc]
            exact ordered.append_right [message]
          · exact ordered.trans (List.sublist_append_left _ _)
        · rw [takesNone, publishes, waiting]
          intro fits
          rw [all fits]
        · intro other isFound
          obtain rfl := Option.some.inj (delivered.symm.trans isFound)
          rw [takesNone, publishes]
          refine ⟨subscription.deliver_pattern subject message, ?_, all⟩
          simp only [Subscription.deliver, isMatch, if_true]
      · rw [if_neg isMatch, List.append_nil] at publishes
        have unchanged : subscription.deliver subject message = subscription := by
          simp only [Subscription.deliver, isMatch, Bool.false_eq_true, if_false]
        rw [unchanged] at waiting delivered
        refine ⟨given, ?_, ?_, ?_⟩
        · rwa [takesNone, publishes, waiting]
        · rwa [takesNone, publishes, waiting]
        · intro other isFound
          obtain rfl := Option.some.inj (delivered.symm.trans isFound)
          rw [takesNone, publishes]
          exact ⟨rfl, rfl, exactly⟩

theorem Account.unsubscribe (account : Account pattern capacity id since broker) (other : Nat) :
    Account pattern capacity id (since ++ [⟨.unsubscribe other, ()⟩])
      (broker.unsubscribe other) := by
  by_cases same : other = id
  · subst same
    have gone : (broker.unsubscribe other).subscription other = none :=
      Function.update_self ..
    have takesNone : taken other (since ++ [⟨BrokerCall.unsubscribe other, ()⟩]) =
        taken other since := by
      rw [taken_append, taken_singleton]
      exact List.append_nil _
    have publishesNone : published pattern (since ++ [⟨BrokerCall.unsubscribe other, ()⟩]) =
        published pattern since := by
      rw [published_append, published_singleton]
      exact List.append_nil _
    refine ⟨account.given, ?_, ?_, ?_⟩
    · rw [takesNone, publishesNone, Broker.waiting_eq_nil gone, List.append_nil]
      exact (List.sublist_append_left _ _).trans account.ordered
    · rw [takesNone, publishesNone, Broker.waiting_eq_nil gone, List.append_nil]
      exact fun fits => (List.prefix_append _ _).trans (account.complete fits)
    · intro subscription isFound
      rw [gone] at isFound
      cases isFound
  · have kept : (broker.unsubscribe other).subscription id = broker.subscription id :=
      Function.update_of_ne (Ne.symm same) _ _
    exact account.untouched le_rfl kept rfl rfl

theorem Account.take (account : Account pattern capacity id since broker) {other : Nat}
    {message : Message} (takes : broker.take other = some (message, after)) :
    Account pattern capacity id (since ++ [⟨.receive other, some message⟩]) after := by
  obtain ⟨subscription, rest, found, pendingEq, nextIdEq, updated, -, -⟩ := Broker.take_spec takes
  by_cases same : other = id
  · subst same
    have left : after.subscription other = some { subscription with pending := rest } := by
      rw [updated, Function.update_self]
    have moves : taken other (since ++ [⟨BrokerCall.receive other, some message⟩]) ++ rest =
        taken other since ++ subscription.pending := by
      rw [taken_append, taken_singleton, pendingEq]
      simp [takenFrom]
    have publishesNone :
        published pattern (since ++ [⟨BrokerCall.receive other, some message⟩]) =
          published pattern since := by
      rw [published_append, published_singleton]
      exact List.append_nil _
    have waitedFor := Broker.waiting_eq_of_subscription found
    have waits : after.waiting other = rest := Broker.waiting_eq_of_subscription left
    obtain ⟨given, ordered, complete, live⟩ := account
    rw [waitedFor] at ordered complete
    refine ⟨nextIdEq ▸ given, ?_, ?_, ?_⟩
    · rwa [waits, moves, publishesNone]
    · rwa [waits, moves, publishesNone]
    · intro found' isFound
      obtain rfl := Option.some.inj (left.symm.trans isFound)
      rw [moves, publishesNone]
      exact live subscription found
  · apply account.untouched nextIdEq.ge
    · rw [updated, Function.update_of_ne (Ne.symm same)]
    · rfl
    · simp [takenFrom, same]

/-- Every call keeps the account. -/
theorem Account.step {call : BrokerCall Message} {response : call.Response} {refused : Bool}
    (account : Account pattern capacity id since broker)
    (executed : call.execute refused broker = some (response, after)) :
    Account pattern capacity id (since ++ [⟨call, response⟩]) after := by
  have grows := (execute_subscribed executed).1
  rcases execute_cases executed with done | ⟨rfl, publishesNone, takesNone⟩
  · cases done with
    | publish subject message => exact account.publish subject message
    | subscribe other room =>
        have kept : (broker.subscribe other room).2.subscription id = broker.subscription id :=
          Function.update_of_ne account.given.ne _ _
        exact account.untouched grows kept rfl rfl
    | unsubscribe other => exact account.unsubscribe other
    | receive takes => exact account.take takes
    | addStream name subjects =>
        refine account.untouched grows ?_ rfl rfl
        unfold Broker.addStream
        split <;> rfl
    | pullSubscribe subscribes =>
        obtain ⟨-, rfl⟩ := Broker.pullSubscribe_spec subscribes
        exact account.untouched grows rfl rfl rfl
    | fetch fetches =>
        obtain ⟨_, _, _, _, -, -, -, -, rfl⟩ := Broker.fetch_spec fetches
        exact account.untouched grows rfl rfl rfl
  · exact account.untouched le_rfl rfl (publishesNone pattern) (takesNone id)

/-- The account is right after any calls. -/
theorem Account.run (account : Account pattern capacity id since broker)
    (leads : Leads broker history last) :
    Account pattern capacity id (since ++ history) last := by
  induction history generalizing since broker with
  | nil =>
      obtain rfl : broker = last := leads
      rwa [List.append_nil]
  | cons answered history ih =>
      obtain ⟨refused, after, executed, later⟩ := leads
      rw [List.append_cons]
      exact ih (account.step executed) later

/-- What is taken from a subscription was published to its pattern since, and
is taken in the order of publication. -/
theorem taken_sublist (leads : Leads (broker.subscribe pattern capacity).2 history last) :
    List.Sublist (taken broker.nextId history) (published pattern history) := by
  have account := (account_subscribe broker pattern capacity).run leads
  exact (List.sublist_append_left _ _).trans account.ordered

/-- Nothing in between is missing while everything fits. -/
theorem taken_prefix (leads : Leads (broker.subscribe pattern capacity).2 history last)
    (fits : Fits capacity (published pattern history)) :
    taken broker.nextId history <+: published pattern history := by
  have account := (account_subscribe broker pattern capacity).run leads
  exact (List.prefix_append _ _).trans (account.complete fits)

end Account

/-! ### Streams -/

/-- Whatever a stream retains was published in these calls. -/
def Retains (history : List (Answered Message)) (broker : Broker Message) : Prop :=
  ∀ name stream, broker.stream name = some stream → ∀ entry ∈ stream.messages,
    ⟨publish entry.1 entry.2, true⟩ ∈ history

/-- The consumer reads the stream with the filter. -/
def Reads (stream filter : String) (id : Nat) (broker : Broker Message) : Prop :=
  id < broker.nextId ∧ ∃ position, broker.consumer id = some ⟨stream, filter, position⟩

section Streams

variable {stream filter : String} {id : Nat} {history before : List (Answered Message)}
variable {broker after last : Broker Message}

theorem Retains.mono {more : List (Answered Message)} (retains : Retains history broker)
    (grown : history ⊆ more) (same : after.stream = broker.stream) : Retains more after := by
  intro name stream found entry member
  rw [same] at found
  exact grown (retains name stream found entry member)

theorem Retains.publish (retains : Retains history broker) (subject : String)
    (message : Message) :
    Retains (history ++ [⟨.publish subject message, true⟩]) (broker.publish subject message) := by
  intro name stream found entry member
  obtain ⟨old, oldFound, rfl⟩ := Option.map_eq_some_iff.mp found
  unfold Stream.retain at member
  split at member
  · rcases List.mem_append.mp member with member | member
    · exact List.mem_append_left _ (retains name old oldFound entry member)
    · obtain rfl := List.mem_singleton.mp member
      exact List.mem_append_right _ List.mem_cons_self
  · exact List.mem_append_left _ (retains name old oldFound entry member)

theorem Retains.addStream (retains : Retains history broker) (name : String)
    (subjects : List String) : Retains history (broker.addStream name subjects) := by
  unfold Broker.addStream
  split
  · exact retains
  · intro other stream found entry member
    by_cases same : other = name
    · rw [same] at found
      simp only [Function.update_self, Option.some.injEq] at found
      subst found
      cases member
    · simp only [Function.update_of_ne same] at found
      exact retains other stream found entry member

theorem Retains.step {call : BrokerCall Message} {response : call.Response} {refused : Bool}
    (retains : Retains history broker)
    (executed : call.execute refused broker = some (response, after)) :
    Retains (history ++ [⟨call, response⟩]) after := by
  have grown : history ⊆ history ++ [⟨call, response⟩] := List.subset_append_left _ _
  rcases execute_cases executed with done | ⟨rfl, -, -⟩
  · cases done with
    | publish subject message => exact retains.publish subject message
    | subscribe pattern room => exact retains.mono grown rfl
    | unsubscribe other => exact retains.mono grown rfl
    | receive takes =>
        obtain ⟨_, _, -, -, -, -, sameStreams, -⟩ := Broker.take_spec takes
        exact retains.mono grown sameStreams
    | addStream name subjects => exact (retains.addStream name subjects).mono grown rfl
    | pullSubscribe subscribes =>
        obtain ⟨-, rfl⟩ := Broker.pullSubscribe_spec subscribes
        exact retains.mono grown rfl
    | fetch fetches =>
        obtain ⟨_, _, _, _, -, -, -, -, rfl⟩ := Broker.fetch_spec fetches
        exact retains.mono grown rfl
  · exact retains.mono grown rfl

theorem reads_of_pullSubscribe {refused : Bool}
    (executed : execute refused (.pullSubscribe stream filter) broker = some (some id, after)) :
    Reads stream filter id after := by
  simp only [execute] at executed
  split at executed
  · simp at executed
  · split at executed
    · simp at executed
    · next subscribes =>
        obtain ⟨idEq, rfl⟩ := Prod.mk.inj (Option.some.inj executed)
        obtain rfl := Option.some.inj idEq
        obtain ⟨rfl, rfl⟩ := Broker.pullSubscribe_spec subscribes
        exact ⟨Nat.lt_succ_self _, 0, Function.update_self ..⟩

theorem Reads.same (reads : Reads stream filter id broker)
    (grows : broker.nextId ≤ after.nextId) (same : after.consumer id = broker.consumer id) :
    Reads stream filter id after := by
  obtain ⟨bound, position, found⟩ := reads
  exact ⟨lt_of_lt_of_le bound grows, position, same.trans found⟩

theorem Reads.step {call : BrokerCall Message} {response : call.Response} {refused : Bool}
    (reads : Reads stream filter id broker)
    (executed : call.execute refused broker = some (response, after)) :
    Reads stream filter id after := by
  have grows := (execute_subscribed executed).1
  rcases execute_cases executed with done | ⟨rfl, -, -⟩
  · cases done with
    | publish subject message => exact reads
    | subscribe pattern room => exact reads.same grows rfl
    | unsubscribe other => exact reads.same grows rfl
    | receive takes =>
        obtain ⟨_, _, -, -, -, -, -, sameConsumers⟩ := Broker.take_spec takes
        exact reads.same grows (congrFun sameConsumers id)
    | addStream name subjects =>
        apply reads.same grows
        unfold Broker.addStream
        split <;> rfl
    | pullSubscribe subscribes =>
        obtain ⟨-, rfl⟩ := Broker.pullSubscribe_spec subscribes
        exact reads.same grows (Function.update_of_ne reads.1.ne _ _)
    | @fetch other message after fetches =>
        obtain ⟨consumer, _, _, position, consumerFound, -, -, -, rfl⟩ := Broker.fetch_spec fetches
        by_cases isSame : other = id
        · subst isSame
          obtain ⟨bound, _, found⟩ := reads
          obtain rfl := Option.some.inj (consumerFound.symm.trans found)
          exact ⟨bound, position, Function.update_self ..⟩
        · exact reads.same grows (Function.update_of_ne (Ne.symm isSame) _ _)
  · exact reads

theorem Retains.run (retains : Retains before broker) (leads : Leads broker history last) :
    Retains (before ++ history) last := by
  induction history generalizing before broker with
  | nil =>
      obtain rfl : broker = last := leads
      rwa [List.append_nil]
  | cons answered history ih =>
      obtain ⟨refused, after, executed, later⟩ := leads
      rw [List.append_cons]
      exact ih (retains.step executed) later

theorem Reads.run (reads : Reads stream filter id broker) (leads : Leads broker history last) :
    Reads stream filter id last := by
  induction history generalizing broker with
  | nil =>
      obtain rfl : broker = last := leads
      exact reads
  | cons answered history ih =>
      obtain ⟨refused, after, executed, later⟩ := leads
      exact ih (reads.step executed) later

/-- What a consumer fetches was published to its filter. -/
theorem published_of_fetch {message : Message} {refused : Bool} (retains : Retains history broker)
    (reads : Reads stream filter id broker)
    (executed : execute refused (.fetch id) broker = some (some message, after)) :
    message ∈ published filter history := by
  simp only [execute] at executed
  split at executed
  · simp at executed
  · obtain ⟨⟨found, next⟩, fetched, same⟩ := Option.map_eq_some_iff.mp executed
    obtain ⟨isMessage, -⟩ := Prod.mk.inj same
    obtain rfl := Option.some.inj isMessage
    obtain ⟨consumer, _, subject, _, consumerFound, streamFound, member, isMatch, -⟩ :=
      Broker.fetch_spec fetched
    obtain ⟨-, position, isReader⟩ := reads
    obtain rfl := Option.some.inj (consumerFound.symm.trans isReader)
    exact mem_published_iff.mpr ⟨subject, retains _ _ streamFound _ member, isMatch⟩

end Streams

end BrokerCall

end Litefunctions
