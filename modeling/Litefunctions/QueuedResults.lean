import Litefunctions.ClosedChannels

/-!
# Results that wait in a channel

NATS hands the messages of a subscription to its callback one at a time.  The
callback sends what it has copied if there is room in the channel, and drops it
otherwise, while the handler receives and writes.  This file keeps account of
every message that the callback was handed, in any run of the ingestor.
-/

namespace Litefunctions

namespace Ingestor

namespace Goroutines

/-! ### What a run shows of a request -/

/-- What the steps of one request show, in the order in which they happen. -/
def State.observed {Seen : Type} (look : Action → Request → Option Seen) (id : Nat)
    (state : State) : Events → List Seen
  | [] => []
  | event :: events =>
      match state.step event.1 event.2 with
      | none => []
      | some after =>
          (if event.1 = id then (look event.2 (state.requests id)).toList else []) ++
            after.observed look id events

/-- A result at the channel, and the results that wait there unread. -/
structure Arrival where
  payload : Bytes
  queued : List Bytes
  deriving DecidableEq

namespace Request

/-- The message with which NATS calls the callback. -/
def delivery (action : Action) (request : Request) : Option Bytes :=
  if action = .startCallback then request.pending.head? else none

/-- The result with which the callback comes to its `select`. -/
def arrival (action : Action) (request : Request) : Option Arrival :=
  match action, request.callback with
  | .send, .copied payload => some ⟨payload, request.channel⟩
  | _, _ => none

/-- The result that the handler passes to `Write` or `WriteMessage`. -/
def written (action : Action) (request : Request) : Option Bytes :=
  match action, request.handler with
  | .write _, .writing res => some res
  | _, _ => none

/-- The result that the handler has received and not written. -/
def inHand (request : Request) : List Bytes :=
  match request.handler with
  | .writing res => [res]
  | _ => []

/-- The message that is still in the callback. -/
def inCallback (request : Request) : List Bytes :=
  match request.callback with
  | .idle => []
  | .running data => [data]
  | .copied payload => [payload]

end Request

/-- The payloads of the results that found room in the channel. -/
def keptPayloads (arrivals : List Arrival) : List Bytes :=
  (arrivals.filter fun arrival => arrival.queued.length ≠ 32).map Arrival.payload

@[simp]
theorem keptPayloads_append (early late : List Arrival) :
    keptPayloads (early ++ late) = keptPayloads early ++ keptPayloads late := by
  simp [keptPayloads]

theorem keptPayloads_full {arrival : Arrival} (full : arrival.queued.length = 32) :
    keptPayloads [arrival] = [] := by
  simp [keptPayloads, full]

theorem keptPayloads_room {arrival : Arrival} (room : arrival.queued.length ≠ 32) :
    keptPayloads [arrival] = [arrival.payload] := by
  simp [keptPayloads, room]

theorem keptPayloads_sublist (arrivals : List Arrival) :
    (keptPayloads arrivals).Sublist (arrivals.map Arrival.payload) :=
  List.filter_sublist.map Arrival.payload

/-! ### The account of one request -/

/-- The messages that were delivered are those that have arrived and the one in
the callback; the results that found room are those that were written, the one
in hand and those that wait.  What waits at an arrival has arrived earlier. -/
structure Accounted (delivered : List Bytes) (arrivals : List Arrival) (written : List Bytes)
    (request : Request) : Prop where
  delivered : delivered = arrivals.map Arrival.payload ++ request.inCallback
  kept : keptPayloads arrivals = written ++ request.inHand ++ request.channel
  bound : request.channel.length ≤ 32
  queued : ∀ early arrival late, arrivals = early ++ arrival :: late →
    arrival.queued.Sublist (early.map Arrival.payload)

section Account

variable {delivered written : List Bytes} {arrivals : List Arrival} {request after : Request}

theorem Accounted.new (kind : Kind) : Accounted [] [] [] (.new kind) := by
  constructor
  · rfl
  · rfl
  · exact Nat.zero_le 32
  · intro early arrival late split
    simp at split

/-- A step that shows nothing and moves no result keeps the account. -/
theorem Accounted.unmoved (accounted : Accounted delivered arrivals written request)
    (sameCallback : after.inCallback = request.inCallback) (sameHand : after.inHand = request.inHand)
    (sameChannel : after.channel = request.channel) :
    Accounted delivered arrivals written after := by
  constructor
  · rw [sameCallback]
    exact accounted.delivered
  · rw [sameHand, sameChannel]
    exact accounted.kept
  · rw [sameChannel]
    exact accounted.bound
  · exact accounted.queued

theorem Accounted.queued_snoc {payload : Bytes}
    (accounted : Accounted delivered arrivals written request) :
    ∀ early arrival late, arrivals ++ [⟨payload, request.channel⟩] = early ++ arrival :: late →
      arrival.queued.Sublist (early.map Arrival.payload) := by
  intro early arrival late split
  rcases List.eq_nil_or_concat late with rfl | ⟨front, final, rfl⟩
  · obtain ⟨rfl, isLast⟩ := List.append_inj' split rfl
    obtain rfl := List.singleton_inj.mp isLast
    apply List.Sublist.trans _ (keptPayloads_sublist arrivals)
    rw [accounted.kept]
    exact List.sublist_append_right _ _
  · rw [List.concat_eq_append, ← List.cons_append, ← List.append_assoc] at split
    exact accounted.queued early arrival front (List.append_inj' split rfl).1

/-- The send drops the result exactly when 32 results wait. -/
theorem Accounted.send (accounted : Accounted delivered arrivals written request)
    (stepped : request.step .send = some after) :
    Accounted delivered (arrivals ++ (Request.arrival .send request).toList) written after := by
  have bound := accounted.bound
  cases callbackEq : request.callback with
  | idle => simp [Request.step, callbackEq] at stepped
  | running data => simp [Request.step, callbackEq] at stepped
  | copied payload =>
      have deliveredEq : delivered = arrivals.map Arrival.payload ++ [payload] := by
        rw [accounted.delivered, Request.inCallback, callbackEq]
      have arrived : Request.arrival .send request = some ⟨payload, request.channel⟩ := by
        simp [Request.arrival, callbackEq]
      rw [arrived, Option.toList_some]
      simp only [Request.step, callbackEq] at stepped
      split at stepped
      · next room =>
          obtain rfl := Option.some.inj stepped
          constructor
          · simp [deliveredEq, Request.inCallback]
          · rw [keptPayloads_append, keptPayloads_room (by simp only; omega), accounted.kept]
            simp [Request.inHand]
          · simp only [List.length_append, List.length_singleton]
            omega
          · exact accounted.queued_snoc
      · next noRoom =>
          obtain rfl := Option.some.inj stepped
          constructor
          · simp [deliveredEq, Request.inCallback]
          · rw [keptPayloads_append, keptPayloads_full (by simp only; omega), accounted.kept]
            simp [Request.inHand]
          · exact bound
          · exact accounted.queued_snoc

theorem Accounted.startCallback (accounted : Accounted delivered arrivals written request)
    (stepped : request.step .startCallback = some after) :
    Accounted (delivered ++ (Request.delivery .startCallback request).toList) arrivals written
      after := by
  cases pendingEq : request.pending with
  | nil => simp [Request.step, pendingEq] at stepped
  | cons data rest =>
      simp only [Request.step, pendingEq, Option.ite_none_right_eq_some, Option.some.injEq] at stepped
      obtain ⟨⟨-, -, idle⟩, rfl⟩ := stepped
      have called : Request.delivery .startCallback request = some data := by
        simp [Request.delivery, pendingEq]
      rw [called, Option.toList_some]
      constructor
      · simp [accounted.delivered, Request.inCallback, idle]
      · exact accounted.kept
      · exact accounted.bound
      · exact accounted.queued

theorem Accounted.receive (accounted : Accounted delivered arrivals written request)
    (stepped : request.step .receive = some after) : Accounted delivered arrivals written after := by
  simp only [Request.step, Option.ite_none_right_eq_some] at stepped
  obtain ⟨⟨waiting, -⟩, stepped⟩ := stepped
  have keptEq : keptPayloads arrivals = written ++ request.channel := by
    rw [accounted.kept, Request.inHand, waiting, List.append_nil]
  have bound := accounted.bound
  cases channelEq : request.channel with
  | nil =>
      simp only [channelEq, Option.ite_none_right_eq_some, Option.some.injEq] at stepped
      obtain ⟨-, rfl⟩ := stepped
      refine Accounted.unmoved accounted rfl ?_ channelEq.symm
      simp [Request.inHand, waiting]
  | cons res rest =>
      simp only [channelEq, Option.some.injEq] at stepped
      subst stepped
      constructor
      · exact accounted.delivered
      · simp [keptEq, channelEq, Request.inHand]
      · rw [channelEq, List.length_cons] at bound
        exact Nat.le_of_succ_le bound
      · exact accounted.queued

/-- After a write the handler has nothing in hand, also when the write failed. -/
theorem Accounted.write {succeeds : Bool} (accounted : Accounted delivered arrivals written request)
    (stepped : request.step (.write succeeds) = some after) :
    Accounted delivered arrivals (written ++ (Request.written (.write succeeds) request).toList)
      after := by
  cases handlerEq : request.handler with
  | writing res =>
      have keptEq : keptPayloads arrivals = written ++ [res] ++ request.channel := by
        rw [accounted.kept, Request.inHand, handlerEq]
      have shown : Request.written (.write succeeds) request = some res := by
        simp [Request.written, handlerEq]
      have moved : after.inHand = [] ∧ after.callback = request.callback ∧
          after.channel = request.channel := by
        grind -linarith [Request.step, Request.inHand]
      rw [shown, Option.toList_some]
      constructor
      · rw [accounted.delivered, Request.inCallback, Request.inCallback, moved.2.1]
      · rw [moved.1, moved.2.2, List.append_nil]
        exact keptEq
      · rw [moved.2.2]
        exact accounted.bound
      · exact accounted.queued
  | _ => simp [Request.step, handlerEq] at stepped

theorem Accounted.step {action : Action} (accounted : Accounted delivered arrivals written request)
    (stepped : request.step action = some after) :
    Accounted (delivered ++ (Request.delivery action request).toList)
      (arrivals ++ (Request.arrival action request).toList)
      (written ++ (Request.written action request).toList) after := by
  cases action with
  | startCallback => simpa [Request.arrival, Request.written] using accounted.startCallback stepped
  | send => simpa [Request.delivery, Request.written] using accounted.send stepped
  | receive =>
      simpa [Request.delivery, Request.arrival, Request.written] using accounted.receive stepped
  | write succeeds => simpa [Request.delivery, Request.arrival] using accounted.write stepped
  | _ =>
      have unmoved : after.inCallback = request.inCallback ∧ after.inHand = request.inHand ∧
          after.channel = request.channel := by
        grind -linarith [Request.step, Request.inHand, Request.inCallback, Request.leave]
      simpa [Request.delivery, Request.arrival, Request.written] using
        accounted.unmoved unmoved.1 unmoved.2.1 unmoved.2.2

end Account

/-! ### Runs -/

/-- Every run of the ingestor keeps the accounts of all its requests. -/
theorem Accounted.run {delivered written : List Bytes} {arrivals : List Arrival} {id : Nat}
    {events : Events} {before after : State}
    (accounted : Accounted delivered arrivals written (before.requests id))
    (ran : before.run events = some after) :
    Accounted (delivered ++ before.observed Request.delivery id events)
      (arrivals ++ before.observed Request.arrival id events)
      (written ++ before.observed Request.written id events) (after.requests id) := by
  induction events generalizing before delivered arrivals written with
  | nil =>
      cases ran
      simpa [State.observed] using accounted
  | cons event events ih =>
      obtain ⟨middle, stepped, ran⟩ := Option.bind_eq_some_iff.mp ran
      obtain ⟨-, request, found, middleEq⟩ := State.step_eq_some stepped
      simp only [State.observed, stepped, ← List.append_assoc]
      apply ih _ ran
      by_cases own : event.1 = id
      · subst own
        have isAfter : middle.requests event.1 = request := by
          rw [middleEq]
          exact Function.update_self _ _ _
        simpa [isAfter] using accounted.step found
      · have isBefore : middle.requests id = before.requests id := by
          rw [middleEq]
          exact Function.update_of_ne (Ne.symm own) _ _
        simpa [own, isBefore] using accounted

variable (kinds : Nat → Kind) (id : Nat) (events : Events)

/-- The messages that NATS hands to the callback of a request. -/
def deliveries : List Bytes :=
  (start kinds).observed Request.delivery id events

/-- What the callback of a request brings to the channel. -/
def arrivals : List Arrival :=
  (start kinds).observed Request.arrival id events

/-- What the handler of a request writes to the client. -/
def writes : List Bytes :=
  (start kinds).observed Request.written id events

/-- The handler writes what was delivered, in the same order and nothing twice.
Of the messages that have arrived at the channel, it has written, has in hand or
still finds in the channel all but those that found 32 results waiting. -/
theorem writes_accounted (state : State) (ran : (start kinds).run events = some state) :
    (writes kinds id events).Sublist (deliveries kinds id events) ∧
      Accounted (deliveries kinds id events) (arrivals kinds id events) (writes kinds id events)
        (state.requests id) := by
  have accounted : Accounted (deliveries kinds id events) (arrivals kinds id events)
      (writes kinds id events) (state.requests id) := by
    have atStart : Accounted [] [] [] ((start kinds).requests id) := Accounted.new (kinds id)
    simpa [deliveries, arrivals, writes] using atStart.run ran
  apply And.intro _ accounted
  calc
    (writes kinds id events).Sublist (keptPayloads (arrivals kinds id events)) := by
      rw [accounted.kept, List.append_assoc]
      exact List.sublist_append_left _ _
    List.Sublist _ ((arrivals kinds id events).map Arrival.payload) := keptPayloads_sublist _
    List.Sublist _ (deliveries kinds id events) := by
      rw [accounted.delivered]
      exact List.sublist_append_left _ _

/-- An event stream with two results, of which the second still waits. -/
def twoResults : Events :=
  ([.subscribe, .deliver [1], .deliver [2], .startCallback, .copy, .send, .startCallback, .copy,
    .receive, .send, .write true] : List Action).map (0, ·)

theorem twoResults_accounted :
    ∃ state, (start fun _ => .sse).run twoResults = some state ∧
      (writes (fun _ => .sse) 0 twoResults).Sublist [[1], [2]] ∧
      Accounted [[1], [2]] [⟨[1], []⟩, ⟨[2], []⟩] [[1]] (state.requests 0) :=
  ⟨_, rfl, writes_accounted (fun _ => .sse) 0 twoResults _ rfl⟩

end Goroutines

end Ingestor

end Litefunctions
