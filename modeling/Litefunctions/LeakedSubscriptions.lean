import Litefunctions.ClosedChannels

/-!
# Leaked subscriptions of the ingestor

A handler ends its subscription in its cleanup.  `Reply` has no cleanup, and
the handler of `WS` waits for results or for the context of its request, which
the server does not cancel once the connection is hijacked: a client that
leaves is noticed only when a result is written to it.
-/

namespace Litefunctions

namespace Ingestor

namespace Goroutines

/-! ### Leaks -/

/-- The steps of the goroutines of a request. -/
def IsOwn (action : Action) : Prop :=
  action ≠ .closeClient ∧ ∀ data, action ≠ .deliver data

/-- The request after some steps of its own. -/
inductive OwnRun : Request → Request → Prop where
  | refl (request : Request) : OwnRun request request
  | step {request middle after : Request} {action : Action} (isOwn : IsOwn action)
      (stepped : request.step action = some middle) (later : OwnRun middle after) :
      OwnRun request after

/-- The goroutines of a request can still end its subscription. -/
def CanRelease (request : Request) : Prop :=
  ∃ after, OwnRun request after ∧ after.subscribed = false

/-- Everything that was delivered for a request has been taken. -/
def AllConsumed (request : Request) : Prop :=
  request.pending = [] ∧ request.callback = .idle ∧ request.channel = []

instance decidableAllConsumed (request : Request) : Decidable (AllConsumed request) :=
  inferInstanceAs (Decidable (_ ∧ _ ∧ _))

/-- The handler has returned, or the client has left and nothing remains to be
taken. -/
def IsOver (request : Request) : Prop :=
  request.handler = .returned ∨ request.clientClosed ∧ AllConsumed request

/-- The request is over, and nothing will end its subscription. -/
def IsLeaked (request : Request) : Prop :=
  request.subscribed ∧ IsOver request ∧ ¬ CanRelease request

/-- The handler of `WS` waits for a client that has left. -/
structure IsStranded (request : Request) : Prop where
  kind : request.kind = .ws
  hijacked : request.reader ≠ .absent
  left : request.clientClosed
  context : request.contextDone = false
  waiting : request.handler = .waiting
  consumed : AllConsumed request

/-! ### Which requests leak -/

/-- The handler is in its loop, or has just left it. -/
def Handler.inLoop : Handler → Bool
  | .waiting | .writing _ | .unsubscribing => true
  | _ => false

/-- Where the handler of a request can be. -/
structure IsPlaced (request : Request) : Prop where
  notHijacked : request.kind ≠ .ws → request.reader = .absent
  hijacked : request.kind = .ws → request.subscribed → request.reader ≠ .absent
  prepares : request.handler = .preparing → request.subscribed = false ∧ AllConsumed request
  waits : request.handler = .waiting → request.subscribed
  replies : request.kind = .sync → request.handler ∈ [.preparing, .waiting, .returned]
  streams : request.kind ≠ .sync → request.subscribed = request.handler.inLoop
  ended : request.channelClosed → request.handler = .hangingUp ∨ request.handler = .returned

theorem IsPlaced.new (kind : Kind) : IsPlaced (.new kind) := by
  constructor <;> simp [Request.new, AllConsumed, Handler.inLoop]

theorem IsPlaced.step {request after : Request} {action : Action} (placed : IsPlaced request)
    (stepped : request.step action = some after) : IsPlaced after := by
  obtain ⟨notHijacked, hijacked, prepares, waits, replies, streams, ended⟩ := placed
  cases action <;>
    grind -linarith [Request.step, Request.leave, Request.streams, IsPlaced, AllConsumed, Handler.inLoop]

theorem meets_true (state : State) (events : Events) : Meets (fun _ _ => True) state events := by
  induction events generalizing state with
  | nil => trivial
  | cons event events ih => exact ⟨trivial, fun after _ => ih after⟩

theorem isPlaced_of_run {kinds : Nat → Kind} {events : Events} {state : State}
    (ran : (start kinds).run events = some state) : ∀ id, IsPlaced (state.requests id) :=
  requests_of_run (fun _ _ _ placed _ => placed.step) (fun id => IsPlaced.new (kinds id))
    (meets_true _ events) ran

/-- A subscription of a request that nothing will end: the one of `Reply`, or
the one of a stranded handler. -/
def IsStuck (request : Request) : Prop :=
  request.subscribed ∧ (request.kind = .sync ∨ IsStranded request)

/-- No goroutine of a stuck request ends its subscription. -/
theorem IsStuck.step {request after : Request} {action : Action} (stuck : IsStuck request)
    (placed : IsPlaced request) (isOwn : IsOwn action)
    (stepped : request.step action = some after) : IsStuck after := by
  obtain ⟨subscribed, isSync | stranded⟩ := stuck
  · have replies := placed.replies isSync
    refine ⟨?_, .inl ?_⟩
    · cases action <;> grind -linarith [Request.step]
    · cases action <;> grind -linarith [Request.step]
  · obtain ⟨isWs, hijacked, left, context, waiting, pending, idle, channel⟩ := stranded
    have opened : ¬ request.channelClosed := by
      intro isClosed
      have ended := placed.ended isClosed
      rw [waiting] at ended
      simp at ended
    cases action <;> grind -linarith [Request.step, IsStuck, IsStranded, IsOwn, AllConsumed]

theorem IsStuck.not_canRelease {request : Request} (stuck : IsStuck request)
    (placed : IsPlaced request) : ¬ CanRelease request := by
  rintro ⟨after, run, released⟩
  induction run with
  | refl request =>
      rw [stuck.1] at released
      cases released
  | step isOwn stepped _ ih =>
      exact ih (stuck.step placed isOwn stepped) (placed.step stepped) released

theorem CanRelease.of_step {request after : Request} {action : Action} (isOwn : IsOwn action)
    (stepped : request.step action = some after) (releases : CanRelease after) :
    CanRelease request := by
  obtain ⟨last, run, released⟩ := releases
  exact ⟨last, .step isOwn stepped run, released⟩

theorem canRelease_of_unsubscribing {request : Request}
    (unsubscribing : request.handler = .unsubscribing) : CanRelease request := by
  have stepped : request.step .unsubscribe =
      some { request with handler := .closing, subscribed := false, pending := [] } := by
    simp [Request.step, unsubscribing]
  exact CanRelease.of_step ⟨by simp, by simp⟩ stepped ⟨_, .refl _, rfl⟩

/-- A handler that waits ends its subscription when its context is done. -/
theorem canRelease_of_context {request : Request} (waiting : request.handler = .waiting)
    (streams : request.kind ≠ .sync) (context : request.contextDone) : CanRelease request := by
  have stepped : request.step .contextDone =
      some { request with handler := .unsubscribing } := by
    simp [Request.step, Request.streams, waiting, streams, context]
  exact (canRelease_of_unsubscribing rfl).of_step ⟨by simp, by simp⟩ stepped

/-- The server cancels the context of a connection that is not hijacked. -/
theorem canRelease_of_left {request : Request} (waiting : request.handler = .waiting)
    (isSse : request.kind = .sse) (reader : request.reader = .absent)
    (left : request.clientClosed) : CanRelease request := by
  have stepped : request.step .cancelContext = some { request with contextDone := true } := by
    simp [Request.step, left, reader]
  have releases : CanRelease { request with contextDone := true } :=
    canRelease_of_context waiting (by simp [isSse]) rfl
  exact releases.of_step ⟨by simp, by simp⟩ stepped

/-- The requests that leak are those of `Sync` that waited for a reply and
those of `WS` whose clients left without a result on the way. -/
theorem isLeaked_iff {request : Request} (placed : IsPlaced request) :
    IsLeaked request ↔
      request.subscribed ∧
        (request.kind = .sync ∧ IsOver request ∨ IsStranded request) := by
  constructor
  · rintro ⟨subscribed, isOver, cannot⟩
    apply And.intro subscribed
    by_cases isSync : request.kind = .sync
    · exact .inl ⟨isSync, isOver⟩
    right
    have inLoop : request.handler.inLoop = true :=
      (placed.streams isSync).symm.trans subscribed
    have left : request.clientClosed ∧ AllConsumed request := by
      rcases isOver with returned | left
      · rw [returned] at inLoop
        cases inLoop
      · exact left
    cases place : request.handler with
    | waiting =>
        cases isKind : request.kind with
        | sync => exact absurd isKind isSync
        | sse =>
            have reader := placed.notHijacked (by simp [isKind])
            exact absurd (canRelease_of_left place isKind reader left.1) cannot
        | ws =>
            refine ⟨isKind, placed.hijacked isKind subscribed, left.1, ?_, place, left.2⟩
            apply eq_false_of_ne_true
            intro context
            exact cannot (canRelease_of_context place isSync context)
    | writing res =>
        exfalso
        apply cannot
        cases isKind : request.kind with
        | sync => exact absurd isKind isSync
        | sse =>
            have reader := placed.notHijacked (by simp [isKind])
            have stepped : request.step (.write true) =
                some { request with handler := .waiting } := by
              simp [Request.step, place, isKind]
            have releases : CanRelease { request with handler := .waiting } :=
              canRelease_of_left rfl isKind reader left.1
            exact releases.of_step ⟨by simp, by simp⟩ stepped
        | ws =>
            have stepped : request.step (.write false) =
                some { request with handler := .unsubscribing } := by
              simp [Request.step, place, isKind]
            exact (canRelease_of_unsubscribing rfl).of_step ⟨by simp, by simp⟩ stepped
    | unsubscribing => exact absurd (canRelease_of_unsubscribing place) cannot
    | _ => simp [place, Handler.inLoop] at inLoop
  · rintro ⟨subscribed, ⟨isSync, isOver⟩ | stranded⟩
    · exact ⟨subscribed, isOver, IsStuck.not_canRelease ⟨subscribed, .inl isSync⟩ placed⟩
    · exact ⟨subscribed, .inr ⟨stranded.left, stranded.consumed⟩,
        IsStuck.not_canRelease ⟨subscribed, .inr stranded⟩ placed⟩

/-! ### Runs without leaks -/

/-- The step makes a handler of `WS` wait for a client that has left, with
nothing on the way that it would find out by. -/
def Strands (action : Action) (request : Request) : Prop :=
  request.kind = .ws ∧ request.contextDone = false ∧
    (action = .subscribe ∧ request.clientClosed ∨
      action = .closeClient ∧ request.handler = .waiting ∧ AllConsumed request ∨
      action = .write true ∧ request.clientClosed ∧ AllConsumed request)

instance decidableStrands (action : Action) (request : Request) :
    Decidable (Strands action request) :=
  inferInstanceAs (Decidable (_ ∧ _))

/-- No request subscribes in `Reply`, and no handler of `WS` is stranded. -/
def NoticesLeaving (action : Action) (request : Request) : Prop :=
  (action = .subscribe → request.kind ≠ .sync) ∧ ¬ Strands action request

instance decidableNoticesLeaving (action : Action) (request : Request) :
    Decidable (NoticesLeaving action request) :=
  inferInstanceAs (Decidable (_ ∧ _))

/-- No subscription of the request is one that nothing will end. -/
structure IsAttended (request : Request) : Prop where
  placed : IsPlaced request
  streams : request.subscribed → request.kind ≠ .sync
  notStranded : ¬ IsStranded request

theorem IsAttended.new (kind : Kind) : IsAttended (.new kind) :=
  ⟨.new kind, by rintro ⟨⟩, fun stranded => by cases stranded.left⟩

theorem IsAttended.step {request after : Request} {action : Action}
    (attended : IsAttended request) (notices : NoticesLeaving action request)
    (stepped : request.step action = some after) : IsAttended after := by
  obtain ⟨placed, streams, notStranded⟩ := attended
  refine ⟨placed.step stepped, ?_, ?_⟩
  · cases action <;> grind -linarith [Request.step, NoticesLeaving]
  · rintro ⟨isWs, hijacked, left, context, waiting, pending, idle, channel⟩
    cases action with
    | deliver data =>
        simp only [Request.step, Option.ite_none_right_eq_some, Option.some.injEq] at stepped
        obtain ⟨-, rfl⟩ := stepped
        simp at pending
    | send =>
        -- The channel has the result, or it was full.
        simp only [Request.step] at stepped
        split at stepped
        · split at stepped
          · cases stepped
            simp at channel
          · next full =>
              cases stepped
              change request.channel = [] at channel
              simp [channel] at full
        · cases stepped
    | closeClient => grind -linarith [Request.step, NoticesLeaving, Strands, AllConsumed]
    | subscribe => grind -linarith [Request.step, NoticesLeaving, Strands]
    | write succeeds => grind -linarith [Request.step, NoticesLeaving, Strands, AllConsumed]
    | _ => grind -linarith [Request.step, Request.leave, IsStranded, AllConsumed]

theorem IsAttended.not_leaked {request : Request} (attended : IsAttended request) :
    ¬ IsLeaked request := by
  intro leaked
  obtain ⟨subscribed, ⟨isSync, -⟩ | stranded⟩ := (isLeaked_iff attended.placed).mp leaked
  · exact attended.streams subscribed isSync
  · exact attended.notStranded stranded

/-- A run in which no request subscribes in `Reply` and every handler of `WS`
notices that its client has left reaches no leaked subscription. -/
theorem run_not_leaked (kinds : Nat → Kind) (events : Events) (state : State)
    (meets : Meets NoticesLeaving (start kinds) events)
    (ran : (start kinds).run events = some state) : ∀ id, ¬ IsLeaked (state.requests id) := by
  have attended := requests_of_run (fun _ _ _ => IsAttended.step)
    (fun id => IsAttended.new (kinds id)) meets ran
  exact fun id => (attended id).not_leaked

/-- The condition is exact: from a step that does not meet it the request can
go on to leak its subscription. -/
theorem exists_leaked_of_not_notices {request after : Request} {action : Action}
    (placed : IsPlaced request) (notMet : ¬ NoticesLeaving action request)
    (stepped : request.step action = some after) :
    ∃ last, OwnRun after last ∧ IsLeaked last := by
  have placedAfter := placed.step stepped
  by_cases strands : Strands action request
  · refine ⟨after, .refl after, (isLeaked_iff placedAfter).mpr ?_⟩
    have stranded : after.subscribed ∧ IsStranded after := by
      obtain ⟨isWs, context, ⟨rfl, left⟩ | ⟨rfl, waiting, consumed⟩ | ⟨rfl, left, consumed⟩⟩ := strands
      · simp only [Request.step, Option.ite_none_right_eq_some, Option.some.injEq] at stepped
        obtain ⟨⟨preparing, hijacked⟩, rfl⟩ := stepped
        exact ⟨rfl, isWs, hijacked isWs, left, context, rfl, (placed.prepares preparing).2⟩
      · have subscribed := placed.waits waiting
        simp only [Request.step, Option.ite_none_left_eq_some, Option.some.injEq] at stepped
        obtain ⟨-, rfl⟩ := stepped
        exact ⟨subscribed, isWs, placed.hijacked isWs subscribed, rfl, context, waiting, consumed⟩
      · cases writing : request.handler with
        | writing res =>
            have subscribed : request.subscribed = true := by
              rw [placed.streams (by simp [isWs]), writing]
              rfl
            have hijacked := placed.hijacked isWs subscribed
            simp only [Request.step, writing] at stepped
            split at stepped
            · next fails => simp at fails
            split at stepped
            · cases stepped
            · cases stepped
              exact ⟨subscribed, isWs, hijacked, left, context, rfl, consumed⟩
        | _ => simp [Request.step, writing] at stepped
    exact ⟨stranded.1, .inr stranded.2⟩
  · obtain ⟨rfl, isSync⟩ : action = .subscribe ∧ request.kind = .sync := by
      simpa [NoticesLeaving, strands] using notMet
    simp only [Request.step, Option.ite_none_right_eq_some, Option.some.injEq] at stepped
    obtain ⟨-, rfl⟩ := stepped
    have timesOut : ({ request with handler := .waiting, subscribed := true } : Request).step
        .noReply = some { request with handler := .returned, subscribed := true } := by
      simp [Request.step, isSync]
    refine ⟨_, .step ⟨by simp, by simp⟩ timesOut (.refl _), ?_⟩
    exact (isLeaked_iff (placedAfter.step timesOut)).mpr ⟨rfl, .inl ⟨isSync, .inl rfl⟩⟩

/-- A WebSocket whose client leaves while a result is on the way. -/
def socketEvents : List Action :=
  [.upgrade, .subscribe, .deliver [], .closeClient, .startCallback, .copy, .send, .stopReading,
    .closeReader, .receive, .write false, .unsubscribe, .closeChannel, .closeConn]

theorem socketEvents_not_leaked :
    ∃ state, (start fun _ => .ws).run (socketEvents.map (0, ·)) = some state ∧
      ∀ id, ¬ IsLeaked (state.requests id) := by
  have meets : Meets NoticesLeaving (start fun _ => .ws) (socketEvents.map (0, ·)) := by
    decide
  exact ⟨_, rfl, run_not_leaked (fun _ => .ws) _ _ meets rfl⟩

/-- The request waits for a reply and times out. -/
theorem timedOutReply_leaks :
    ¬ ∀ kinds events state, (start kinds).run events = some state →
      ∀ id, ¬ IsLeaked (state.requests id) := by
  intro never
  have notLeaked := never (fun _ => .sync) [(0, .subscribe), (0, .noReply)] _ rfl 0
  have placed := isPlaced_of_run (show (start fun _ => .sync).run
    [(0, .subscribe), (0, .noReply)] = some _ from rfl) 0
  exact notLeaked ((isLeaked_iff placed).mpr ⟨rfl, .inl ⟨rfl, .inl rfl⟩⟩)

end Goroutines

end Ingestor

end Litefunctions
