import Litefunctions.ExecSubscriptions
import Mathlib.Data.List.Dedup

/-!
# Subscriptions after a reconcile

The table of consumers, the handlers of the client and the subscriptions of the
broker agree as long as every subject can be subscribed to.  A listed name whose
subject cannot is taken for subscribed and gets no message.
-/

namespace Litefunctions

namespace ScriptRuntime

open SeparatedText Subject Nats

variable {runtime : Runtime} {project : String}

/-! ### Every run -/

theorem consumeFunction_accepts {state : State} (accepts : state.nats.session.Accepts)
    (name : String) :
    (consumeFunction runtime project name state).nats.session.Accepts :=
  accepts.receiveSub _ (Client.isField_repr _)

theorem stopStale_accepts (listed : List String) {state : State}
    (accepts : state.nats.session.Accepts) (name : String) :
    (stopStale listed state name).nats.session.Accepts := by
  unfold stopStale
  split
  · exact accepts
  · split
    · exact accepts
    · exact accepts.receiveUnsub _

theorem startMissing_accepts {state : State} (accepts : state.nats.session.Accepts)
    (name : String) :
    (startMissing runtime project state name).nats.session.Accepts := by
  unfold startMissing
  split
  · exact accepts
  · exact consumeFunction_accepts accepts name

/-- What every turn of a loop keeps, the loop keeps. -/
theorem foldl_keeps (Holds : State → Prop) {turn : State → String → State} {names : List String}
    (keeps : ∀ name ∈ names, ∀ state, Holds state → Holds (turn state name)) {state : State}
    (holds : Holds state) : Holds (names.foldl turn state) := by
  induction names generalizing state with
  | nil => exact holds
  | cons name names ih =>
      apply ih fun later member => keeps later (List.mem_cons_of_mem name member)
      exact keeps name List.mem_cons_self state holds

theorem reconcileConsumers_accepts (known desired : List String) {state : State}
    (accepts : state.nats.session.Accepts) :
    (reconcileConsumers runtime project known desired state).nats.session.Accepts := by
  have stopped : (known.foldl (stopStale desired) state).nats.session.Accepts :=
    foldl_keeps (fun state => state.nats.session.Accepts)
      (fun name _ _ holds => stopStale_accepts desired holds name) accepts
  exact foldl_keeps (fun state => state.nats.session.Accepts)
    (fun name _ _ holds => startMissing_accepts holds name) stopped

/-- The broker keeps only subscriptions to subjects that can be subscribed
to. -/
theorem Runs.accepts {reconciles : List (List DirEntry × State)} {state : State}
    (runs : Runs runtime project reconciles state) :
    state.nats.session.Accepts ∧
      ∀ reconcile ∈ reconciles, reconcile.2.nats.session.Accepts := by
  induction runs with
  | initial reconciled =>
      obtain ⟨known, desired, -, -, rfl⟩ := reconciled
      have accepts : (reconcileConsumers runtime project known desired connected).nats.session.Accepts :=
        reconcileConsumers_accepts known desired (by rintro _ _ ⟨⟩)
      apply And.intro (accepts.receiveSub _ (Client.isField_repr _))
      intro reconcile member
      obtain rfl := List.mem_singleton.mp member
      exact accepts
  | refresh earlier reconciled ih =>
      obtain ⟨known, desired, -, -, rfl⟩ := reconciled
      have accepts : (reconcileConsumers runtime project known desired _).nats.session.Accepts :=
        reconcileConsumers_accepts known desired ih.1
      apply And.intro accepts
      intro reconcile member
      rcases List.mem_cons.mp member with rfl | member
      · exact accepts
      · exact ih.2 reconcile member

/-- The subject of a function with a live subscription can be subscribed to. -/
theorem SubscribedExactly.canSubscribe {names : List String} {state : State}
    (exactly : SubscribedExactly runtime project names state)
    (accepts : state.nats.session.Accepts) :
    ∀ name ∈ names, CanSubscribe (runtime.execSubject project name) := by
  intro name listed
  obtain ⟨sid, live, -⟩ := exactly.one name listed
  exact accepts sid _ live.2

/-! ### The three tables -/

/-- The table of consumers, the handlers and the broker's subscriptions
agree. -/
structure InStep (runtime : Runtime) (project : String) (state : State) : Prop where
  opened : state.nats.session.closed = false
  fresh : state.nats.IsFresh
  consumed : ∀ name sid, state.consumers name = some sid →
    state.nats.subs sid = some (.invoke name) ∧
      state.nats.session.subscriptions sid = some ⟨runtime.execSubject project name, none⟩
  known : ∀ sid subscription, state.nats.session.subscriptions sid = some subscription →
    (∃ name, state.consumers name = some sid) ∨
      state.nats.subs sid = some .refresh ∧
        subscription = ⟨runtime.hookSubject project, none⟩

namespace InStep

theorem connected : InStep runtime project connected where
  opened := rfl
  fresh := .connected
  consumed := by rintro _ _ ⟨⟩
  known := by rintro _ _ ⟨⟩

/-- Neither side knows the next number. -/
theorem unused {state : State} (inStep : InStep runtime project state) :
    state.nats.subs state.nats.sid.repr = none ∧
      state.nats.session.subscriptions state.nats.sid.repr = none :=
  inStep.fresh _ le_rfl

theorem ne_of_consumed {state : State} (inStep : InStep runtime project state)
    {name sid : String} (consumer : state.consumers name = some sid) :
    sid ≠ state.nats.sid.repr := by
  rintro rfl
  have known := (inStep.consumed name _ consumer).1
  rw [inStep.unused.1] at known
  cases known

/-- Two functions have two subscriptions. -/
theorem eq_of_consumers {state : State} (inStep : InStep runtime project state)
    {first second sid : String} (firstConsumer : state.consumers first = some sid)
    (secondConsumer : state.consumers second = some sid) : first = second := by
  have firstHandler := (inStep.consumed first sid firstConsumer).1
  rw [(inStep.consumed second sid secondConsumer).1] at firstHandler
  cases firstHandler
  rfl

/-- The broker's subscriptions after a subject is subscribed to. -/
theorem session_subscribe {state : State} (inStep : InStep runtime project state)
    {subject : String} (can : CanSubscribe subject) (handler : Handler) :
    (state.nats.subscribe subject handler).2.session =
      state.nats.session.put state.nats.sid.repr (some ⟨subject, none⟩) :=
  Session.receiveSub_of_canSubscribe can (Client.isField_repr _) inStep.opened inStep.unused.2

theorem consumeFunction {state : State} (inStep : InStep runtime project state) {name : String}
    (can : CanSubscribe (runtime.execSubject project name))
    (missing : state.consumers name = none) :
    InStep runtime project (consumeFunction runtime project name state) := by
  have session := inStep.session_subscribe can (.invoke name)
  refine ⟨?_, inStep.fresh.subscribe _ _, ?_, ?_⟩
  · change (state.nats.subscribe _ _).2.session.closed = false
    rw [session]
    exact inStep.opened
  · intro other sid consumer
    change Function.update state.nats.subs _ _ sid = _ ∧
      (state.nats.subscribe _ _).2.session.subscriptions sid = _
    rw [session]
    change Function.update state.consumers name (some state.nats.sid.repr) other = some sid
      at consumer
    by_cases same : other = name
    · subst same
      rw [Function.update_self] at consumer
      obtain rfl := Option.some.inj consumer
      exact ⟨Function.update_self .., Session.put_self ..⟩
    · rw [Function.update_of_ne same] at consumer
      have differ := inStep.ne_of_consumed consumer
      rw [Function.update_of_ne differ, Session.put_of_ne differ]
      exact inStep.consumed other sid consumer
  · intro sid subscription found
    change (state.nats.subscribe _ _).2.session.subscriptions sid = _ at found
    rw [session] at found
    change (∃ other, Function.update state.consumers name (some state.nats.sid.repr) other =
      some sid) ∨ Function.update state.nats.subs _ _ sid = _ ∧ _
    by_cases same : sid = state.nats.sid.repr
    · exact .inl ⟨name, by rw [Function.update_self, same]⟩
    · rw [Session.put_of_ne same] at found
      rw [Function.update_of_ne same]
      rcases inStep.known sid subscription found with ⟨other, consumer⟩ | hook
      · refine .inl ⟨other, ?_⟩
        have differ : other ≠ name := by
          rintro rfl
          rw [missing] at consumer
          cases consumer
        rw [Function.update_of_ne differ, consumer]
      · exact .inr hook

theorem startMissing {state : State} (inStep : InStep runtime project state) {name : String}
    (can : CanSubscribe (runtime.execSubject project name)) :
    InStep runtime project (startMissing runtime project state name) := by
  unfold ScriptRuntime.startMissing
  split
  · exact inStep
  · next missing => exact inStep.consumeFunction can (by simpa using missing)

theorem stopStale {state : State} (inStep : InStep runtime project state)
    (listed : List String) (name : String) :
    InStep runtime project (stopStale listed state name) := by
  unfold ScriptRuntime.stopStale
  split
  · exact inStep
  next sid stopped =>
    split
    · exact inStep
    have session : (state.nats.unsubscribe sid).session = state.nats.session.put sid none := by
      simp [Client.unsubscribe, Session.receiveUnsub, inStep.opened]
    refine ⟨?_, inStep.fresh.unsubscribe sid, ?_, ?_⟩
    · change (state.nats.unsubscribe sid).session.closed = false
      rw [session]
      exact inStep.opened
    · intro other otherSid consumer
      change Function.update state.nats.subs sid none otherSid = _ ∧
        (state.nats.unsubscribe sid).session.subscriptions otherSid = _
      rw [session]
      change Function.update state.consumers name none other = some otherSid at consumer
      have differ : other ≠ name := by
        rintro rfl
        simp at consumer
      rw [Function.update_of_ne differ] at consumer
      have sidsDiffer : otherSid ≠ sid := by
        rintro rfl
        exact differ (inStep.eq_of_consumers consumer stopped)
      rw [Function.update_of_ne sidsDiffer, Session.put_of_ne sidsDiffer]
      exact inStep.consumed other otherSid consumer
    · intro otherSid subscription found
      change (state.nats.unsubscribe sid).session.subscriptions otherSid = _ at found
      rw [session] at found
      change (∃ other, Function.update state.consumers name none other = some otherSid) ∨
        Function.update state.nats.subs sid none otherSid = _ ∧ _
      have sidsDiffer : otherSid ≠ sid := by
        rintro rfl
        simp at found
      rw [Session.put_of_ne sidsDiffer] at found
      rw [Function.update_of_ne sidsDiffer]
      rcases inStep.known otherSid subscription found with ⟨other, consumer⟩ | hook
      · refine .inl ⟨other, ?_⟩
        have differ : other ≠ name := by
          rintro rfl
          rw [stopped] at consumer
          exact sidsDiffer (Option.some.inj consumer).symm
        rw [Function.update_of_ne differ, consumer]
      · exact .inr hook

theorem watchHook {state : State} (inStep : InStep runtime project state)
    (can : CanSubscribe (runtime.hookSubject project)) :
    InStep runtime project (watchHook runtime project state) := by
  have session := inStep.session_subscribe can .refresh
  refine ⟨?_, inStep.fresh.subscribe _ _, ?_, ?_⟩
  · change (state.nats.subscribe _ _).2.session.closed = false
    rw [session]
    exact inStep.opened
  · intro name sid consumer
    have differ := inStep.ne_of_consumed consumer
    change Function.update state.nats.subs _ _ sid = _ ∧
      (state.nats.subscribe _ _).2.session.subscriptions sid = _
    rw [session, Function.update_of_ne differ, Session.put_of_ne differ]
    exact inStep.consumed name sid consumer
  · intro sid subscription found
    change (state.nats.subscribe _ _).2.session.subscriptions sid = _ at found
    rw [session] at found
    change (∃ name, state.consumers name = some sid) ∨
      Function.update state.nats.subs _ _ sid = _ ∧ _
    by_cases same : sid = state.nats.sid.repr
    · subst same
      rw [Session.put_self] at found
      exact .inr ⟨Function.update_self .., (Option.some.inj found).symm⟩
    · rw [Session.put_of_ne same] at found
      rw [Function.update_of_ne same]
      exact inStep.known sid subscription found

/-- A subscription for the executions of a function is the one in the table of
consumers. -/
theorem consumer_of_isExec {state : State} (inStep : InStep runtime project state)
    {sid name : String} (isExec : IsExec runtime project state sid name) :
    state.consumers name = some sid := by
  obtain ⟨subscription, live, isFor⟩ := isExec
  rcases inStep.known sid subscription live.2 with ⟨other, consumer⟩ | ⟨refreshes, isHook⟩
  · have consumed := inStep.consumed other sid consumer
    rcases isFor with rfl | invokes
    · have same := consumed.2.symm.trans live.2
      have sameSubject := congrArg Nats.Subscription.subject (Option.some.inj same)
      rw [← execSubject_injective runtime project sameSubject]
      exact consumer
    · rw [consumed.1] at invokes
      cases invokes
      exact consumer
  · rcases isFor with rfl | invokes
    · have sameSubject := congrArg Nats.Subscription.subject isHook
      exact absurd sameSubject (execSubject_ne_hookSubject runtime project name)
    · rw [refreshes] at invokes
      cases invokes

theorem subscribedExactly {state : State} (inStep : InStep runtime project state)
    {names : List String} (consumers : ∀ name, (state.consumers name).isSome ↔ name ∈ names) :
    SubscribedExactly runtime project names state where
  one name listed := by
    obtain ⟨sid, consumer⟩ := Option.isSome_iff_exists.mp ((consumers name).mpr listed)
    have consumed := inStep.consumed name sid consumer
    refine ⟨sid, ⟨inStep.opened, consumed.2⟩, consumed.1, fun other isExec => ?_⟩
    have same := (inStep.consumer_of_isExec isExec).symm.trans consumer
    exact Option.some.inj same
  noOther name notListed sid isExec := by
    apply notListed
    rw [← consumers, inStep.consumer_of_isExec isExec]
    rfl

end InStep

/-! ### One reconcile -/

theorem stopStale_consumers (listed : List String) (state : State) (name other : String) :
    (stopStale listed state name).consumers other =
      if other = name ∧ other ∉ listed then none else state.consumers other := by
  unfold stopStale
  split
  · next missing =>
      by_cases same : other = name
      · subst same
        simp [missing]
      · simp [same]
  · split
    · next isListed =>
        have kept : ¬ (other = name ∧ other ∉ listed) := by
          rintro ⟨rfl, notListed⟩
          exact notListed isListed
        rw [if_neg kept]
    · next notListed =>
        by_cases same : other = name
        · subst same
          simp [notListed]
        · simp [same]

theorem foldl_stopStale_consumers (listed known : List String) (state : State) (other : String) :
    (known.foldl (stopStale listed) state).consumers other =
      if other ∈ known ∧ other ∉ listed then none else state.consumers other := by
  induction known generalizing state with
  | nil => simp
  | cons name known ih =>
      rw [List.foldl_cons, ih, stopStale_consumers]
      by_cases isListed : other ∈ listed
      · simp [isListed]
      · by_cases later : other ∈ known
        · simp [later, isListed]
        · simp [later, isListed]

theorem startMissing_consumers (state : State) (name other : String) :
    ((startMissing runtime project state name).consumers other).isSome ↔
      other = name ∨ (state.consumers other).isSome := by
  unfold startMissing
  by_cases same : other = name
  · subst same
    split
    · next started => simp [started]
    · simp [consumeFunction]
  · split
    · simp [same]
    · simp [consumeFunction, same]

theorem foldl_startMissing_consumers (desired : List String) (state : State) (other : String) :
    ((desired.foldl (startMissing runtime project) state).consumers other).isSome ↔
      other ∈ desired ∨ (state.consumers other).isSome := by
  induction desired generalizing state with
  | nil => simp
  | cons name desired ih =>
      rw [List.foldl_cons, ih, startMissing_consumers, List.mem_cons]
      tauto

/-- After a reconcile the consumers are those of the listed names. -/
theorem Reconciles.consumers {directory : List DirEntry} {before after : State}
    (reconciled : Reconciles runtime project directory before after) (name : String) :
    (after.consumers name).isSome ↔ name ∈ runtime.listFunctions directory := by
  obtain ⟨known, desired, knows, desires, rfl⟩ := reconciled
  rw [reconcileConsumers, foldl_startMissing_consumers, foldl_stopStale_consumers, ← desires]
  simp only [knows]
  by_cases listed : name ∈ desired
  · simp [listed]
  · by_cases consumed : (before.consumers name).isSome
    · simp [listed, consumed]
    · simp [listed, consumed]

theorem Reconciles.inStep {directory : List DirEntry} {before after : State}
    (reconciled : Reconciles runtime project directory before after)
    (inStep : InStep runtime project before)
    (can : ∀ name ∈ runtime.listFunctions directory,
      CanSubscribe (runtime.execSubject project name)) :
    InStep runtime project after := by
  obtain ⟨known, desired, -, desires, rfl⟩ := reconciled
  have stopped : InStep runtime project (known.foldl (stopStale desired) before) :=
    foldl_keeps (InStep runtime project) (fun name _ _ holds => holds.stopStale desired name)
      inStep
  apply foldl_keeps (InStep runtime project) _ stopped
  intro name member state holds
  exact holds.startMissing (can name ((desires name).mp member))

/-! ### Runs of listed names -/

/-- The subjects of all names that a run has listed can be subscribed to. -/
def ListsSubjects (runtime : Runtime) (project : String)
    (reconciles : List (List DirEntry × State)) : Prop :=
  ∀ reconcile ∈ reconciles, ∀ name ∈ runtime.listFunctions reconcile.1,
    CanSubscribe (runtime.execSubject project name)

theorem Runs.inStep {reconciles : List (List DirEntry × State)} {state : State}
    (runs : Runs runtime project reconciles state) (plain : PlainTokens project)
    (lists : ListsSubjects runtime project reconciles) :
    InStep runtime project state ∧
      ∀ reconcile ∈ reconciles,
        SubscribedExactly runtime project (runtime.listFunctions reconcile.1) reconcile.2 := by
  induction runs with
  | initial reconciled =>
      have after := reconciled.inStep .connected (lists _ List.mem_cons_self)
      apply And.intro (after.watchHook (canSubscribe_hookSubject runtime project plain))
      intro reconcile member
      obtain rfl := List.mem_singleton.mp member
      exact after.subscribedExactly reconciled.consumers
  | refresh earlier reconciled ih =>
      have before := ih fun reconcile member => lists reconcile (List.mem_cons_of_mem _ member)
      have after := reconciled.inStep before.1 (lists _ List.mem_cons_self)
      apply And.intro after
      intro reconcile member
      rcases List.mem_cons.mp member with rfl | member
      · exact after.subscribedExactly reconciled.consumers
      · exact before.2 reconcile member

/-- Nothing is subscribed for a function. -/
structure Idle (state : State) : Prop where
  consumers : ∀ name, state.consumers name = none
  handlers : ∀ sid name, state.nats.subs sid ≠ some (.invoke name)

/-- A reconcile without names leaves an idle runtime as it is. -/
theorem Reconciles.eq_of_idle {directory : List DirEntry} {before after : State}
    (reconciled : Reconciles runtime project directory before after) (idle : Idle before)
    (nothing : ∀ name, name ∉ runtime.listFunctions directory) : after = before := by
  obtain ⟨known, desired, knows, desires, rfl⟩ := reconciled
  have noKnown : known = [] := by
    rw [List.eq_nil_iff_forall_not_mem]
    intro name member
    simpa [idle.consumers name] using (knows name).mp member
  have noDesired : desired = [] := by
    rw [List.eq_nil_iff_forall_not_mem]
    exact fun name member => nothing name ((desires name).mp member)
  rw [noKnown, noDesired]
  rfl

/-- No function has a subscription where the project stands in no subject that
can be subscribed to. -/
theorem Idle.subscribedExactly {state : State} (idle : Idle state)
    (accepts : state.nats.session.Accepts) (notPlain : ¬ PlainTokens project)
    {names : List String} (nothing : ∀ name, name ∉ names) :
    SubscribedExactly runtime project names state where
  one name listed := absurd listed (nothing name)
  noOther name _ sid isExec := by
    obtain ⟨subscription, live, isFor⟩ := isExec
    rcases isFor with rfl | invokes
    · have can := accepts sid _ live.2
      exact notPlain ((canSubscribe_execSubject_iff runtime project name).mp can).1
    · exact idle.handlers sid name invokes

theorem Runs.idle {reconciles : List (List DirEntry × State)} {state : State}
    (runs : Runs runtime project reconciles state)
    (nothing : ∀ reconcile ∈ reconciles, ∀ name, name ∉ runtime.listFunctions reconcile.1) :
    Idle state ∧ ∀ reconcile ∈ reconciles, Idle reconcile.2 := by
  induction runs with
  | initial reconciled =>
      have start : Idle connected := ⟨fun _ => rfl, by rintro _ _ ⟨⟩⟩
      obtain rfl := reconciled.eq_of_idle start (nothing _ List.mem_cons_self)
      constructor
      · refine ⟨fun _ => rfl, fun sid name invokes => ?_⟩
        change Function.update (fun _ => none) _ (some Handler.refresh) sid = _ at invokes
        by_cases same : sid = (1 : Nat).repr
        · rw [same] at invokes
          simp [connected, Client.connected] at invokes
        · simp [connected, Client.connected, Function.update_of_ne same] at invokes
      · intro reconcile member
        obtain rfl := List.mem_singleton.mp member
        exact start
  | refresh earlier reconciled ih =>
      have before := ih fun reconcile member => nothing reconcile (List.mem_cons_of_mem _ member)
      obtain rfl := reconciled.eq_of_idle before.1 (nothing _ List.mem_cons_self)
      apply And.intro before.1
      intro reconcile member
      rcases List.mem_cons.mp member with rfl | member
      · exact before.1
      · exact before.2 reconcile member

/-! ### Names of the TypeScript runtime -/

theorem isToken_of_all {stem : List Char} (nonempty : stem ≠ [])
    (letters : ∀ char ∈ stem, (char.isAlphanum || char = '_' || char = '-') = true) :
    IsToken (String.ofList stem) := by
  refine ⟨fun empty => nonempty ?_, fun char member => ?_⟩
  · simpa using congrArg String.toList empty
  · rw [String.toList_ofList] at member
    have letter := letters char member
    refine ⟨?_, ?_, ?_, ?_⟩
    · rintro rfl
      exact absurd letter (by decide)
    · rintro rfl
      exact absurd letter (by decide)
    · rintro rfl
      exact absurd letter (by decide)
    · apply eq_false_of_ne_true
      intro blank
      have oneOf : char = ' ' ∨ char = '\t' ∨ char = '\r' ∨ char = '\n' := by
        simpa only [Char.isWhitespace, Bool.or_eq_true, decide_eq_true_eq, or_assoc] using blank
      rcases oneOf with rfl | rfl | rfl | rfl <;> exact absurd letter (by decide)

/-- The names that the TypeScript runtime lists are tokens. -/
theorem isToken_of_mem_tsListFunctions {directory : List DirEntry} {name : String}
    (listed : name ∈ tsListFunctions directory) : IsToken name := by
  rw [tsListFunctions, List.mem_insertionSort, List.mem_dedup, List.mem_filterMap] at listed
  obtain ⟨entry, found, isStem⟩ := listed
  have isFunction := (List.mem_filter.mp found).2
  obtain ⟨stem, cut, rfl⟩ := Option.map_eq_some_iff.mp isStem
  have stemText : entry.name.toList.take (entry.name.length - 3) = stem := by
    unfold stem? at cut
    split at cut
    · have same := Option.some.inj cut
      rw [String.length_toList] at same
      exact same
    · cases cut
  rw [TsRuntime.isFunctionFile, stemText] at isFunction
  simp only [Bool.and_eq_true, List.all_eq_true] at isFunction
  apply isToken_of_all _ isFunction.1.2
  rintro rfl
  simp at isFunction

theorem plainTokens_of_isToken {name : String} (token : IsToken name) : PlainTokens name := by
  intro piece member
  rw [token.tokens_eq, List.mem_singleton] at member
  subst member
  exact ⟨⟨token.1, fun char inside => (token.2 char inside).2.2.2⟩, token.ne_rest⟩

/-- The TypeScript runtime lists only names whose subjects can be subscribed
to. -/
theorem listsSubjects_ts (plain : PlainTokens project)
    (reconciles : List (List DirEntry × State)) : ListsSubjects .ts project reconciles := by
  intro reconcile _ name listed
  rw [canSubscribe_execSubject_iff]
  exact ⟨plain, plainTokens_of_isToken (isToken_of_mem_tsListFunctions listed)⟩

theorem Runs.ts_subscribedExactly {reconciles : List (List DirEntry × State)} {state : State}
    (runs : Runs .ts project reconciles state) (plain : PlainTokens project) :
    ∀ reconcile ∈ reconciles,
      SubscribedExactly .ts project (tsListFunctions reconcile.1) reconcile.2 :=
  (runs.inStep plain (listsSubjects_ts plain reconciles)).2

/-! ### The result -/

/-- After every reconcile of a run each listed function has one live
subscription and no other function has one, if and only if the subjects of the
listed functions can be subscribed to. -/
theorem Runs.subscribedExactly_iff (runtime : Runtime) (project : String)
    (reconciles : List (List DirEntry × State)) (state : State)
    (runs : Runs runtime project reconciles state) :
    (∀ reconcile ∈ reconciles,
        SubscribedExactly runtime project (runtime.listFunctions reconcile.1) reconcile.2) ↔
      ∀ reconcile ∈ reconciles, ∀ name ∈ runtime.listFunctions reconcile.1,
        CanSubscribe (runtime.execSubject project name) := by
  constructor
  · intro exactly reconcile member
    exact (exactly reconcile member).canSubscribe (runs.accepts.2 reconcile member)
  · intro lists
    by_cases plain : PlainTokens project
    · exact (runs.inStep plain lists).2
    · have nothing : ∀ reconcile ∈ reconciles, ∀ name,
          name ∉ runtime.listFunctions reconcile.1 := by
        intro reconcile member name listed
        have can := lists reconcile member name listed
        exact plain ((canSubscribe_execSubject_iff runtime project name).mp can).1
      intro reconcile member
      exact ((runs.idle nothing).2 reconcile member).subscribedExactly
        (runs.accepts.2 reconcile member) plain (nothing reconcile member)

/-- The directory of a function, and the directory after it was renamed. -/
def helloDirectories : List DirEntry × List DirEntry :=
  ([⟨"hello.lua", true⟩], [⟨"greet.lua", true⟩, ⟨"readme.md", true⟩])

theorem helloRun_subscribedExactly :
    ∃ first last, Runs .lua "shop"
        [(helloDirectories.2, last), (helloDirectories.1, first)] last ∧
      SubscribedExactly .lua "shop" ["hello"] first ∧
      SubscribedExactly .lua "shop" ["greet"] last := by
  have firstListed : Runtime.lua.listFunctions helloDirectories.1 = ["hello"] := by
    decide +kernel
  have lastListed : Runtime.lua.listFunctions helloDirectories.2 = ["greet"] := by
    decide +kernel
  have initial : Reconciles .lua "shop" helloDirectories.1 connected
      (reconcileConsumers .lua "shop" [] ["hello"] connected) :=
    ⟨[], ["hello"], fun name => by simp [connected], fun name => by rw [firstListed], rfl⟩
  have again : Reconciles .lua "shop" helloDirectories.2
      (watchHook .lua "shop" (reconcileConsumers .lua "shop" [] ["hello"] connected))
      (reconcileConsumers .lua "shop" ["hello"] ["greet"]
        (watchHook .lua "shop" (reconcileConsumers .lua "shop" [] ["hello"] connected))) := by
    refine ⟨["hello"], ["greet"], fun name => ?_, fun name => by rw [lastListed], rfl⟩
    have consumers := initial.consumers name
    rw [firstListed] at consumers
    exact consumers.symm
  have runs := (Runs.initial initial).refresh again
  have exactly := (Runs.subscribedExactly_iff .lua "shop" _ _ runs).mpr (by
    intro reconcile member name listed
    rcases List.mem_cons.mp member with rfl | member
    · rw [lastListed, List.mem_singleton] at listed
      subst listed
      decide +kernel
    · obtain rfl := List.mem_singleton.mp member
      rw [firstListed, List.mem_singleton] at listed
      subst listed
      decide +kernel)
  refine ⟨_, _, runs, ?_, ?_⟩
  · rw [← firstListed]
    exact exactly _ (List.mem_cons_of_mem _ List.mem_cons_self)
  · rw [← lastListed]
    exact exactly _ List.mem_cons_self

/-- A blank in the name of a file makes the Lua runtime send a line that
subscribes to something else. -/
theorem blankName_notSubscribed :
    ¬ ∀ runtime project reconciles state, Runs runtime project reconciles state →
      ∀ reconcile ∈ reconciles,
        SubscribedExactly runtime project (runtime.listFunctions reconcile.1) reconcile.2 := by
  intro always
  have listed : Runtime.lua.listFunctions [⟨"a b.lua", true⟩] = ["a b"] := by
    decide +kernel
  have initial : Reconciles .lua "shop" [⟨"a b.lua", true⟩] connected
      (reconcileConsumers .lua "shop" [] ["a b"] connected) :=
    ⟨[], ["a b"], fun name => by simp [connected], fun name => by rw [listed], rfl⟩
  have runs : Runs .lua "shop" _ _ := .initial initial
  have exactly := always _ _ _ _ runs _ List.mem_cons_self
  rw [listed] at exactly
  have can := exactly.canSubscribe (runs.accepts.2 _ List.mem_cons_self) "a b" List.mem_cons_self
  exact absurd can (by decide +kernel)

end ScriptRuntime

end Litefunctions
