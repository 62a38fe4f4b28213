import Litefunctions.PlatformCalls

/-!
# Subscriptions that processes hold

The broker gives every subscription an id of its own.  When processes end only
subscriptions that they made, a subscription exists at a moment of a run
exactly while the process that made it holds it.
-/

namespace Litefunctions

open PlatformCall Event

/-- The subscription `id` was made with `pattern` in these calls. -/
def SubscribedAs (pattern : String) (id : Nat) (history : PlatformHistory) : Prop :=
  ∃ capacity, ⟨broker (.subscribe pattern capacity), some id⟩ ∈ history

/-- The subscription `id` was ended in these calls. -/
def Ended (id : Nat) (history : PlatformHistory) : Prop :=
  ⟨broker (.unsubscribe id), ()⟩ ∈ history

/-- These calls made a subscription and did not end it. -/
def Holds (pattern : String) (id : Nat) (history : PlatformHistory) : Prop :=
  SubscribedAs pattern id history ∧ ¬ Ended id history

theorem SubscribedAs.mono {pattern : String} {id : Nat} {early late : PlatformHistory}
    (made : SubscribedAs pattern id early) (subset : early ⊆ late) :
    SubscribedAs pattern id late := by
  obtain ⟨capacity, member⟩ := made
  exact ⟨capacity, subset member⟩

variable {Pid : Type} [DecidableEq Pid]

/-- Processes end only subscriptions that they made. -/
def EndOwn (events : List (PlatformEvent Pid)) : Prop :=
  ∀ early event late id, events = early ++ event :: late →
    event.answered = ⟨broker (.unsubscribe id), ()⟩ →
    ∃ pattern, SubscribedAs pattern id (own event.pid early)

/-- What a prefix of a run says about the subscriptions of the broker after
it, for the ids from `firstId` on. -/
structure Accounted (firstId : Nat) (events : List (PlatformEvent Pid)) (broker : Broker Msg) :
    Prop where
  bounds : firstId ≤ broker.nextId
  given : ∀ pid pattern id, SubscribedAs pattern id (own pid events) →
    firstId ≤ id ∧ id < broker.nextId
  unique : ∀ pid other pattern another id, SubscribedAs pattern id (own pid events) →
    SubscribedAs another id (own other events) → pid = other ∧ pattern = another
  exists_iff : ∀ id pattern, firstId ≤ id → (broker.patternOf id = some pattern ↔
    (∃ pid, SubscribedAs pattern id (own pid events)) ∧ ¬ ∃ pid, Ended id (own pid events))

theorem subscribedAs_snoc {events : List (PlatformEvent Pid)} {event : PlatformEvent Pid}
    {pid : Pid} {pattern : String} {id : Nat} :
    SubscribedAs pattern id (own pid (events ++ [event])) ↔
      SubscribedAs pattern id (own pid events) ∨ (event.pid = pid ∧
        ∃ capacity, event.answered = ⟨broker (.subscribe pattern capacity), some id⟩) := by
  simp only [SubscribedAs, own_append, List.mem_append, mem_own, List.mem_singleton,
    exists_eq_left, exists_or, exists_and_left]

theorem ended_snoc {events : List (PlatformEvent Pid)} {event : PlatformEvent Pid}
    {pid : Pid} {id : Nat} :
    Ended id (own pid (events ++ [event])) ↔
      Ended id (own pid events) ∨ (event.pid = pid ∧
        event.answered = ⟨broker (.unsubscribe id), ()⟩) := by
  simp only [Ended, own_append, List.mem_append, mem_own, List.mem_singleton, exists_eq_left]

/-- A call that makes and ends no subscription keeps the account. -/
theorem Accounted.other {firstId : Nat} {events : List (PlatformEvent Pid)}
    {event : PlatformEvent Pid} {before after : Broker Msg}
    (accounted : Accounted firstId events before) (grows : before.nextId ≤ after.nextId)
    (same : ∀ id, after.patternOf id = before.patternOf id)
    (noSubscribe : ∀ pattern capacity id,
      event.answered ≠ ⟨broker (.subscribe pattern capacity), some id⟩)
    (noUnsubscribe : ∀ id, event.answered ≠ ⟨broker (.unsubscribe id), ()⟩) :
    Accounted firstId (events ++ [event]) after where
  bounds := accounted.bounds.trans grows
  given := by
    intro pid pattern id made
    rcases subscribedAs_snoc.mp made with made | ⟨-, capacity, answered⟩
    · have given := accounted.given pid pattern id made
      omega
    · exact absurd answered (noSubscribe pattern capacity id)
  unique := by
    intro pid other pattern another id made madeToo
    simp only [subscribedAs_snoc, noSubscribe, exists_false, and_false, or_false] at made madeToo
    exact accounted.unique pid other pattern another id made madeToo
  exists_iff := by
    intro id pattern new
    simp only [subscribedAs_snoc, ended_snoc, noSubscribe, noUnsubscribe, exists_false, and_false,
      or_false, same]
    exact accounted.exists_iff id pattern new

theorem Accounted.subscribe {firstId : Nat} {events : List (PlatformEvent Pid)}
    {event : PlatformEvent Pid} {before after : Broker Msg} {pattern : String}
    {capacity : Option Nat} {id : Nat} (accounted : Accounted firstId events before)
    (endOwn : EndOwn events)
    (answered : event.answered = ⟨broker (.subscribe pattern capacity), some id⟩)
    (idEq : id = before.nextId) (grows : id < after.nextId)
    (new : after.patternOf id = some pattern)
    (others : ∀ other, other ≠ id → after.patternOf other = before.patternOf other) :
    Accounted firstId (events ++ [event]) after := by
  have made : ∀ {pid : Pid} {another : String} {other : Nat},
      SubscribedAs another other (own pid (events ++ [event])) ↔
        SubscribedAs another other (own pid events) ∨
          (event.pid = pid ∧ another = pattern ∧ other = id) := by
    intro pid another other
    rw [subscribedAs_snoc, answered]
    constructor
    · rintro (made | ⟨isOwn, otherCapacity, equal⟩)
      · exact .inl made
      · cases equal
        exact .inr ⟨isOwn, rfl, rfl⟩
    · rintro (made | ⟨isOwn, rfl, rfl⟩)
      · exact .inl made
      · exact .inr ⟨isOwn, capacity, rfl⟩
  have ended : ∀ {pid : Pid} {other : Nat},
      Ended other (own pid (events ++ [event])) ↔ Ended other (own pid events) := by
    intro pid other
    rw [ended_snoc, answered]
    simp
  have notMade : ∀ pid another, ¬ SubscribedAs another id (own pid events) := by
    intro pid another early
    have given := accounted.given pid another id early
    omega
  refine ⟨accounted.bounds.trans (by omega), ?_, ?_, ?_⟩
  · intro pid another other early
    rcases made.mp early with early | ⟨-, -, rfl⟩
    · have given := accounted.given pid another other early
      omega
    · exact ⟨idEq ▸ accounted.bounds, grows⟩
  · intro pid another first second other early late
    rcases made.mp early with early | ⟨rfl, rfl, rfl⟩
    · rcases made.mp late with late | ⟨-, -, rfl⟩
      · exact accounted.unique pid another first second other early late
      · exact absurd early (notMade _ _)
    · rcases made.mp late with late | ⟨rfl, rfl, -⟩
      · exact absurd late (notMade _ _)
      · exact ⟨rfl, rfl⟩
  · intro other another isNew
    simp only [made, ended]
    by_cases same : other = id
    · subst same
      have notEnded : ¬ ∃ pid, Ended other (own pid events) := by
        rintro ⟨pid, member⟩
        obtain ⟨first, rest, ownEq⟩ := List.append_of_mem member
        obtain ⟨early, middle, late, rfl, -, middleEq, -⟩ := exists_split_of_own_eq ownEq
        obtain ⟨another, made⟩ := endOwn early middle late other rfl middleEq
        refine notMade middle.pid another (made.mono ?_)
        rw [own_append]
        exact List.subset_append_left _ _
      simp [new, notEnded, notMade, eq_comm]
    · simp only [others other same, same, and_false, or_false]
      exact accounted.exists_iff other another isNew

theorem Accounted.unsubscribe {firstId : Nat} {events : List (PlatformEvent Pid)}
    {event : PlatformEvent Pid} {before after : Broker Msg} {id : Nat}
    (accounted : Accounted firstId events before)
    (answered : event.answered = ⟨broker (.unsubscribe id), ()⟩)
    (grows : before.nextId ≤ after.nextId) (gone : after.patternOf id = none)
    (others : ∀ other, other ≠ id → after.patternOf other = before.patternOf other) :
    Accounted firstId (events ++ [event]) after := by
  have made : ∀ {pid : Pid} {pattern : String} {other : Nat},
      SubscribedAs pattern other (own pid (events ++ [event])) ↔
        SubscribedAs pattern other (own pid events) := by
    intro pid pattern other
    rw [subscribedAs_snoc, answered]
    simp
  have ended : ∀ {pid : Pid} {other : Nat}, Ended other (own pid (events ++ [event])) ↔
      Ended other (own pid events) ∨ (event.pid = pid ∧ other = id) := by
    intro pid other
    rw [ended_snoc, answered]
    constructor
    · rintro (early | ⟨isOwn, equal⟩)
      · exact .inl early
      · cases equal
        exact .inr ⟨isOwn, rfl⟩
    · rintro (early | ⟨isOwn, rfl⟩)
      · exact .inl early
      · exact .inr ⟨isOwn, rfl⟩
  refine ⟨accounted.bounds.trans grows, ?_, ?_, ?_⟩
  · intro pid pattern other early
    have given := accounted.given pid pattern other (made.mp early)
    omega
  · intro pid another pattern second other early late
    exact accounted.unique pid another pattern second other (made.mp early) (made.mp late)
  · intro other pattern isNew
    simp only [made, ended]
    by_cases same : other = id
    · subst same
      simp only [gone, reduceCtorEq, false_iff, not_and, not_not]
      exact fun _ => ⟨event.pid, .inr ⟨rfl, trivial⟩⟩
    · simp only [others other same, same, and_false, or_false]
      exact accounted.exists_iff other pattern isNew

theorem EndOwn.left {early late : List (PlatformEvent Pid)} (endOwn : EndOwn (early ++ late)) :
    EndOwn early := by
  rintro first event rest id rfl answered
  exact endOwn first event (rest ++ late) id (by simp) answered

/-- Only calls to the broker change it. -/
theorem broker_eq_of_execute {call : PlatformCall} {circumstance : Circumstance}
    {before after : Platform} {response : call.Response}
    (executed : call.execute circumstance before = some (response, after))
    (noBroker : ∀ brokerCall, call ≠ broker brokerCall) : after.broker = before.broker := by
  cases call with
  | broker brokerCall => exact absurd rfl (noBroker brokerCall)
  | awaitReader index =>
      obtain ⟨_, _, same⟩ := Option.map_eq_some_iff.mp executed
      obtain ⟨-, rfl⟩ := Prod.mk.inj same
      rfl
  | awaitWorker index =>
      obtain ⟨_, _, same⟩ := Option.map_eq_some_iff.mp executed
      obtain ⟨-, rfl⟩ := Prod.mk.inj same
      rfl
  | awaitDeployment key =>
      obtain ⟨_, _, same⟩ := Option.map_eq_some_iff.mp executed
      obtain ⟨-, rfl⟩ := Prod.mk.inj same
      rfl
  | _ =>
      obtain ⟨-, rfl⟩ := Prod.mk.inj (Option.some.inj executed)
      rfl

theorem broker_of_execute {call : BrokerCall Msg} {circumstance : Circumstance}
    {before after : Platform} {response : call.Response}
    (executed : (broker call).execute circumstance before = some (response, after)) :
    call.execute circumstance.refused before.broker = some (response, after.broker) := by
  simp only [execute] at executed
  split at executed
  · cases executed
  · next answer next brokerExecuted =>
      obtain ⟨rfl, rfl⟩ := Prod.mk.inj (Option.some.inj executed)
      exact brokerExecuted

theorem Accounted.step {firstId : Nat} {events : List (PlatformEvent Pid)}
    {event : PlatformEvent Pid} {circumstance : Circumstance}
    (accounted : Accounted firstId events event.before.broker) (endOwn : EndOwn events)
    (executed : event.request.execute circumstance event.before =
      some (event.response, event.after)) :
    Accounted firstId (events ++ [event]) event.after.broker := by
  obtain ⟨pid, request, response, before, after⟩ := event
  by_cases isBroker : ∃ call, request = broker call
  · obtain ⟨call, rfl⟩ := isBroker
    obtain ⟨grows, subscribed⟩ := BrokerCall.execute_subscribed (broker_of_execute executed)
    cases call with
    | subscribe pattern capacity =>
        cases response with
        | none => exact accounted.other grows subscribed (by simp [answered]) (by simp [answered])
        | some id =>
            obtain ⟨idEq, bound, new, others⟩ := subscribed
            exact accounted.subscribe endOwn rfl idEq bound new others
    | unsubscribe id => exact accounted.unsubscribe rfl grows subscribed.1 subscribed.2
    | _ => exact accounted.other grows subscribed (by simp [answered]) (by simp [answered])
  · have same : after.broker = before.broker :=
      broker_eq_of_execute executed fun call equal => isBroker ⟨call, equal⟩
    apply accounted.other (by rw [same]) (fun id => by rw [same])
    · intro pattern capacity id equal
      exact isBroker ⟨_, congrArg Sigma.fst equal⟩
    · intro id equal
      exact isBroker ⟨_, congrArg Sigma.fst equal⟩

section Run

variable {Result : Type} {start last : Processes Pid PlatformCall Response Result Platform}
variable {events early late : List (PlatformEvent Pid)} {event : PlatformEvent Pid}

/-- The account of the events so far is right after any run. -/
theorem accounted_run (ran : Processes.Ran execute start events last) (endOwn : EndOwn events) :
    Accounted start.shared.broker.nextId events last.shared.broker := by
  rw [ran.lastShared]
  refine ran.linked.run_induction (motive := fun early platform =>
    Accounted start.shared.broker.nextId early platform.broker) ?_ ?_
  · refine ⟨le_rfl, ?_, ?_, ?_⟩
    · intro pid pattern id made
      simp [SubscribedAs] at made
    · intro pid other pattern another id made
      simp [SubscribedAs] at made
    · intro id pattern isNew
      simp [Broker.patternOf_eq_none_of_le isNew, SubscribedAs]
  · rintro early event late rfl accounted
    have member : event ∈ early ++ event :: late := by
      simp
    obtain ⟨circumstance, executed⟩ := ran.executed member
    exact accounted.step endOwn.left executed

/-- A subscription that a process makes at some time of a run exists, with its
pattern, exactly while the process holds it. -/
theorem patternOf_eq_some_iff
    (ran : Processes.Ran execute start (early ++ event :: late) last)
    (endOwn : EndOwn (early ++ event :: late)) {pid : Pid} {pattern another : String} {id : Nat}
    (made : SubscribedAs pattern id (own pid (early ++ event :: late))) :
    event.before.broker.patternOf id = some another ↔ Holds another id (own pid early) := by
  have whole := accounted_run ran endOwn
  obtain ⟨middle, ranEarly, next, -, beforeEq, -⟩ := Processes.ran_append.mp ran
  have accounted := accounted_run ranEarly endOwn.left
  rw [beforeEq, accounted.exists_iff id another (whole.given pid pattern id made).1]
  have owner : ∀ {other : Pid} {first : String}, SubscribedAs first id (own other early) →
      other = pid := by
    intro other first early
    refine (whole.unique other pid first pattern id (early.mono ?_) made).1
    rw [own_append]
    exact List.subset_append_left _ _
  constructor
  · rintro ⟨⟨other, early⟩, notEnded⟩
    obtain rfl := owner early
    exact ⟨early, fun ended => notEnded ⟨other, ended⟩⟩
  · rintro ⟨early, notEnded⟩
    refine ⟨⟨pid, early⟩, ?_⟩
    rintro ⟨other, ended⟩
    obtain ⟨first, rest, ownEq⟩ := List.append_of_mem ended
    obtain ⟨start, middle, rest, rfl, rfl, middleEq, -⟩ := exists_split_of_own_eq ownEq
    obtain ⟨first, made⟩ := endOwn.left start middle rest id rfl middleEq
    apply notEnded
    rw [← owner (made.mono (by rw [own_append]; exact List.subset_append_left _ _))]
    exact ended

/-- The broker hands a published message to a subscription of a process
exactly if the process holds the subscription and its pattern matches. -/
theorem received_iff (ran : Processes.Ran execute start (early ++ event :: late) last)
    (endOwn : EndOwn (early ++ event :: late)) {pid : Pid} {pattern : String} {id : Nat}
    (made : SubscribedAs pattern id (own pid (early ++ event :: late)))
    {subject : String} {msg : Msg}
    (publishes : event.answered = ⟨broker (.publish subject msg), true⟩) :
    event.after.broker.received id = event.before.broker.received id ++ [msg] ↔
      ∃ another, Holds another id (own pid early) ∧
        Subject.matchesPattern another subject = true := by
  have afterEq : event.after.broker = event.before.broker.publish subject msg := by
    obtain ⟨circumstance, executed⟩ := ran.executed_of_answered_eq (by simp) publishes
    have brokerExecuted := broker_of_execute executed
    simp only [BrokerCall.execute] at brokerExecuted
    split at brokerExecuted
    · simp at brokerExecuted
    · exact (Prod.mk.inj (Option.some.inj brokerExecuted)).2.symm
  rw [afterEq, Broker.received_publish_eq_append_iff]
  simp only [patternOf_eq_some_iff ran endOwn made]

end Run

end Litefunctions
