import Litefunctions.ResultChannels

/-!
# Sends on closed channels

The callback of a subscription may have started before the cleanup of the
handler ends the subscription, and reach its send after the cleanup has closed
the channel.  The ingestor then panics.  It does not as long as no cleanup
closes the channel of a callback that runs.
-/

namespace Litefunctions

namespace Ingestor

namespace Goroutines

/-! ### Runs -/

theorem State.step_eq_some {before after : State} {id : Nat} {action : Action}
    (stepped : before.step id action = some after) :
    before.panicked = false ∧ ∃ request, (before.requests id).step action = some request ∧
      after = ⟨Function.update before.requests id request,
        (before.requests id).panics action⟩ := by
  unfold State.step at stepped
  split at stepped
  · cases stepped
  · next running =>
      obtain ⟨request, found, rfl⟩ := Option.map_eq_some_iff.mp stepped
      exact ⟨eq_false_of_ne_true running, request, found, rfl⟩

/-- What the steps of one request keep, every run keeps of all requests. -/
theorem requests_of_run {Invariant : Request → Prop} {condition : Action → Request → Prop}
    (keeps : ∀ request action after, Invariant request → condition action request →
      request.step action = some after → Invariant after)
    {events : Events} {before after : State} (invariant : ∀ id, Invariant (before.requests id))
    (meets : Meets condition before events) (ran : before.run events = some after) :
    ∀ id, Invariant (after.requests id) := by
  induction events generalizing before with
  | nil =>
      cases ran
      exact invariant
  | cons event events ih =>
      obtain ⟨middle, stepped, ran⟩ := Option.bind_eq_some_iff.mp ran
      obtain ⟨-, request, found, rfl⟩ := State.step_eq_some stepped
      refine ih (fun id => ?_) (meets.2 _ stepped) ran
      change Invariant (Function.update before.requests event.1 request id)
      by_cases same : id = event.1
      · subst same
        rw [Function.update_self]
        exact keeps _ _ _ (invariant event.1) meets.1 found
      · rw [Function.update_of_ne same]
        exact invariant id

/-! ### The channel of one request -/

/-- A closed channel has no subscription and no callback that runs. -/
structure IsQuiet (request : Request) : Prop where
  closed : request.channelClosed → request.subscribed = false ∧ request.callback = .idle ∧
    (request.handler = .hangingUp ∨ request.handler = .returned)
  closing : request.handler = .closing → request.subscribed = false

/-- The cleanup closes the channel only where the callback does not run. -/
def ClosesIdle (action : Action) (request : Request) : Prop :=
  action = .closeChannel → request.callback = .idle

instance decidableClosesIdle (action : Action) (request : Request) :
    Decidable (ClosesIdle action request) :=
  inferInstanceAs (Decidable (_ → _))

theorem IsQuiet.new (kind : Kind) : IsQuiet (.new kind) :=
  ⟨by rintro ⟨⟩, by rintro ⟨⟩⟩

theorem IsQuiet.step {request after : Request} {action : Action} (quiet : IsQuiet request)
    (closesIdle : ClosesIdle action request) (stepped : request.step action = some after) :
    IsQuiet after := by
  obtain ⟨closed, closing⟩ := quiet
  cases action with
  | closeChannel =>
      have idle := closesIdle rfl
      simp only [Request.step, Option.ite_none_right_eq_some, Option.some.injEq] at stepped
      obtain ⟨isClosing, rfl⟩ := stepped
      refine ⟨fun _ => ⟨closing isClosing, idle, ?_⟩, fun again => ?_⟩
      · unfold Request.leave
        split
        · exact .inr rfl
        · exact .inl rfl
      · unfold Request.leave at again
        split at again <;> cases again
  | unsubscribe =>
      simp only [Request.step, Option.ite_none_right_eq_some, Option.some.injEq] at stepped
      obtain ⟨isUnsubscribing, rfl⟩ := stepped
      refine ⟨fun isClosed => ?_, fun _ => rfl⟩
      have ended := (closed isClosed).2.2
      rw [isUnsubscribing] at ended
      exact absurd ended (by simp)
  | startCallback =>
      -- The callback starts only while there is a subscription.
      grind -linarith [Request.step, IsQuiet]
  | subscribe =>
      -- The handler subscribes before it makes the channel's cleanup.
      grind -linarith [Request.step, IsQuiet]
  | _ => grind -linarith [Request.step, Request.leave, IsQuiet]

theorem IsQuiet.panics {request after : Request} {action : Action} (quiet : IsQuiet request)
    (stepped : request.step action = some after) : request.panics action = false := by
  by_cases sends : action = .send ∧ request.channelClosed
  · obtain ⟨rfl, isClosed⟩ := sends
    have idle := (quiet.closed isClosed).2.1
    simp [Request.step, idle] at stepped
  · simpa [Request.panics] using sends

/-- An ingestor whose cleanups close no channel under a running callback never
sends on a closed channel. -/
theorem not_panicked_of_run {events : Events} {before after : State}
    (quiet : ∀ id, IsQuiet (before.requests id)) (running : before.panicked = false)
    (meets : Meets ClosesIdle before events) (ran : before.run events = some after) :
    after.panicked = false := by
  induction events generalizing before with
  | nil =>
      cases ran
      exact running
  | cons event events ih =>
      obtain ⟨middle, stepped, ran⟩ := Option.bind_eq_some_iff.mp ran
      have first : before.run [event] = some middle := by
        simp [State.run, stepped]
      have meetsFirst : Meets ClosesIdle before [event] := ⟨meets.1, fun _ _ => trivial⟩
      have quietMiddle := requests_of_run (fun _ _ _ => IsQuiet.step) quiet meetsFirst first
      obtain ⟨-, request, found, rfl⟩ := State.step_eq_some stepped
      exact ih quietMiddle ((quiet event.1).panics found) (meets.2 _ stepped) ran

/-! ### Callbacks that go on -/

/-- The channel is closed and the callback has not sent. -/
def IsDoomed (request : Request) : Prop :=
  request.channelClosed ∧ request.callback ≠ .idle

theorem isDoomed_of_closeChannel {request after : Request} (running : request.callback ≠ .idle)
    (stepped : request.step .closeChannel = some after) : IsDoomed after := by
  simp only [Request.step, Option.ite_none_right_eq_some, Option.some.injEq] at stepped
  obtain ⟨-, rfl⟩ := stepped
  exact ⟨rfl, running⟩

/-- The only step that ends the callback is its send. -/
theorem IsDoomed.step {request after : Request} {action : Action} (doomed : IsDoomed request)
    (stepped : request.step action = some after) :
    request.panics action = true ∨ IsDoomed after := by
  obtain ⟨isClosed, running⟩ := doomed
  cases action with
  | send => exact .inl (by simp [Request.panics, isClosed])
  | copy =>
      right
      simp only [Request.step] at stepped
      split at stepped
      · cases stepped
        exact ⟨isClosed, by simp⟩
      · cases stepped
  | _ => grind -linarith [Request.step, IsDoomed]

theorem IsDoomed.run {id : Nat} {events : Events} {before after : State}
    (doomed : IsDoomed (before.requests id)) (ran : before.run events = some after) :
    after.panicked = true ∨ IsDoomed (after.requests id) := by
  induction events generalizing before with
  | nil =>
      cases ran
      exact .inr doomed
  | cons event events ih =>
      obtain ⟨middle, stepped, ran⟩ := Option.bind_eq_some_iff.mp ran
      obtain ⟨-, request, found, rfl⟩ := State.step_eq_some stepped
      by_cases same : id = event.1
      · subst same
        rcases doomed.step found with panics | doomed
        · rw [panics] at ran
          cases events with
          | nil =>
              cases ran
              exact .inl rfl
          | cons next events => simp [State.run, State.step] at ran
        · apply ih _ ran
          simpa using doomed
      · apply ih _ ran
        simpa [Function.update_of_ne same] using doomed

/-- The steps of a callback after it has started. -/
def IsCallback (action : Action) : Prop :=
  action = .copy ∨ action = .send

theorem panics_of_copied {id : Nat} {state : State} {payload : Bytes}
    (running : state.panicked = false) (isClosed : (state.requests id).channelClosed)
    (copied : (state.requests id).callback = .copied payload) :
    ∃ later, state.run [(id, .send)] = some later ∧ later.panicked = true := by
  have sends : ∃ after, (state.requests id).step .send = some after := by
    simp only [Request.step, copied]
    split
    · exact ⟨_, rfl⟩
    · exact ⟨_, rfl⟩
  obtain ⟨after, sends⟩ := sends
  refine ⟨⟨Function.update state.requests id after, true⟩, ?_, rfl⟩
  simp [State.run, State.step, running, sends, Request.panics, isClosed]

/-- A callback that goes on sends on the closed channel. -/
theorem IsDoomed.panics {id : Nat} {state : State} (doomed : IsDoomed (state.requests id))
    (running : state.panicked = false) :
    ∃ callbacks : Events, (∀ event ∈ callbacks, IsCallback event.2) ∧
      ∃ later, state.run callbacks = some later ∧ later.panicked = true := by
  obtain ⟨isClosed, notIdle⟩ := doomed
  cases callback : (state.requests id).callback with
  | idle => exact absurd callback notIdle
  | copied payload =>
      refine ⟨[(id, .send)], ?_, panics_of_copied running isClosed callback⟩
      intro event member
      rw [List.mem_singleton.mp member]
      exact .inr rfl
  | running data =>
      let copied : Request := { state.requests id with callback := .copied data }
      let middle : State := ⟨Function.update state.requests id copied, false⟩
      have copies : state.step id .copy = some middle := by
        simp [State.step, running, Request.step, callback, middle, copied, Request.panics]
      have closedThen : (middle.requests id).channelClosed := by
        simpa [middle, copied] using isClosed
      have callbackThen : (middle.requests id).callback = .copied data := by
        simp [middle, copied]
      obtain ⟨later, sends, panicked⟩ := panics_of_copied rfl closedThen callbackThen
      refine ⟨[(id, .copy), (id, .send)], ?_, later, ?_, panicked⟩
      · intro event member
        rcases List.mem_cons.mp member with rfl | member
        · exact .inl rfl
        · rw [List.mem_singleton.mp member]
          exact .inr rfl
      · rw [State.run, copies]
        exact sends

/-- A cleanup that closes the channel of a running callback leaves it to send
or to have sent. -/
theorem exists_doomed_of_not_meets {events : Events} {before after : State}
    (notMeets : ¬ Meets ClosesIdle before events) (ran : before.run events = some after) :
    after.panicked = true ∨ ∃ id, IsDoomed (after.requests id) := by
  induction events generalizing before with
  | nil => exact absurd trivial notMeets
  | cons event events ih =>
      obtain ⟨middle, stepped, ran⟩ := Option.bind_eq_some_iff.mp ran
      by_cases meetsFirst : ClosesIdle event.2 (before.requests event.1)
      · have later : ¬ Meets ClosesIdle middle events := by
          intro meetsLater
          apply notMeets
          apply And.intro meetsFirst
          intro other otherStepped
          have same : middle = other := Option.some.inj (stepped.symm.trans otherStepped)
          rw [← same]
          exact meetsLater
        exact ih later ran
      · obtain ⟨closes, notIdle⟩ := Classical.not_imp.mp meetsFirst
        obtain ⟨-, request, found, rfl⟩ := State.step_eq_some stepped
        rw [closes] at found
        have doomed := isDoomed_of_closeChannel notIdle found
        have stored : IsDoomed (Function.update before.requests event.1 request event.1) := by
          rwa [Function.update_self]
        rcases IsDoomed.run stored ran with panicked | doomed
        · exact .inl panicked
        · exact .inr ⟨_, doomed⟩

/-- Steps of callbacks close no channel. -/
theorem meets_callbacks {callbacks : Events} (areCallbacks : ∀ event ∈ callbacks, IsCallback event.2)
    (state : State) : Meets ClosesIdle state callbacks := by
  induction callbacks generalizing state with
  | nil => trivial
  | cons event events ih =>
      refine ⟨fun closes => ?_, fun after _ =>
        ih (fun later member => areCallbacks later (List.mem_cons_of_mem _ member)) after⟩
      have isCallback := areCallbacks event List.mem_cons_self
      rw [closes] at isCallback
      rcases isCallback with ⟨⟨⟩⟩ | ⟨⟨⟩⟩

/-! ### The result -/

/-- Whatever the callbacks do after a run, none sends on a closed channel, if
and only if no cleanup of the run has closed the channel of a callback that was
running. -/
theorem never_sends_on_closed_iff (kinds : Nat → Kind) (events : Events) (state : State)
    (ran : (start kinds).run events = some state) :
    (∀ (callbacks : Events) (later : State), (∀ event ∈ callbacks, IsCallback event.2) →
        state.run callbacks = some later → later.panicked = false) ↔
      Meets ClosesIdle (start kinds) events := by
  constructor
  · intro never
    by_contra notMeets
    have running : state.panicked = false := never [] state (by simp) rfl
    rcases exists_doomed_of_not_meets notMeets ran with panicked | ⟨id, doomed⟩
    · rw [running] at panicked
      cases panicked
    · obtain ⟨callbacks, areCallbacks, later, ranLater, panicked⟩ := doomed.panics running
      rw [never callbacks later areCallbacks ranLater] at panicked
      cases panicked
  · intro meets callbacks later areCallbacks ranLater
    have quiet := requests_of_run (fun _ _ _ => IsQuiet.step) (fun id => IsQuiet.new (kinds id))
      meets ran
    have running := not_panicked_of_run (fun id => IsQuiet.new (kinds id)) rfl meets ran
    exact not_panicked_of_run quiet running (meets_callbacks areCallbacks state) ranLater

/-- An event stream that gets one result before its client leaves. -/
def streamEvents : List Action :=
  [.subscribe, .deliver [], .startCallback, .copy, .send, .receive, .write true, .closeClient,
    .cancelContext, .contextDone, .unsubscribe, .closeChannel]

theorem streamEvents_neverSends :
    ∃ state, (start fun _ => .sse).run (streamEvents.map (0, ·)) = some state ∧
      ∀ callbacks later, (∀ event ∈ callbacks, IsCallback event.2) →
        state.run callbacks = some later → later.panicked = false := by
  have meets : Meets ClosesIdle (start fun _ => .sse) (streamEvents.map (0, ·)) := by
    decide
  exact ⟨_, rfl, (never_sends_on_closed_iff (fun _ => .sse) _ _ rfl).mpr meets⟩

/-- A message that arrives as the client leaves makes the ingestor panic. -/
theorem lateCallback_panics :
    ¬ ∀ kinds events state, (start kinds).run events = some state → state.panicked = false := by
  intro never
  let events : List Action :=
    [.subscribe, .deliver [], .startCallback, .copy, .closeClient, .cancelContext, .contextDone,
      .unsubscribe, .closeChannel, .send]
  have running := never (fun _ => .sse) (events.map (0, ·)) _ rfl
  exact absurd running (by decide)

end Goroutines

end Ingestor

end Litefunctions
