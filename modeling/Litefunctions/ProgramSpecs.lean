import Litefunctions.Programs

/-!
# What a program ensures when it runs alone

An environment that answers every call turns a program into a function of what
the environment chooses.  `Ensures` is its weakest precondition over all
choices: every call is allowed in the state in which it is made, and the
result and the final state are as wanted.  The rules follow the structure of
programs; `ensures_iff` reads the assertion back as a statement about runs.
-/

namespace Litefunctions

namespace Program

variable {Call : Type} {Response : Call → Type} {Result Other Choice State : Type}
variable (execute : (request : Call) → Choice → State → Response request × State)

/-- The calls of a run alone, each with the state in which it is made. -/
def callsAlone : Program Call Response Result → (Nat → Choice) → State → List (Call × State)
  | done _, _, _ => []
  | call request next, choices, state =>
      let answered := execute request (choices 0) state
      (request, state) ::
        (next answered.1).callsAlone (fun index => choices (index + 1)) answered.2

/-- Whatever the environment chooses, every call is allowed and the end is as
`post` says. -/
def Ensures (allowed : Call → State → Prop) (post : Result → State → Prop) :
    Program Call Response Result → State → Prop
  | done result, state => post result state
  | call request next, state =>
      allowed request state ∧ ∀ choice,
        (next (execute request choice state).1).Ensures allowed post
          (execute request choice state).2

variable {execute}
variable {allowed : Call → State → Prop} {post : Result → State → Prop} {state : State}
variable {program : Program Call Response Result}

@[simp]
theorem ensures_done {result : Result} :
    (done result : Program Call Response Result).Ensures execute allowed post state ↔
      post result state :=
  Iff.rfl

@[simp]
theorem ensures_call {request : Call} {next : Response request → Program Call Response Result} :
    (call request next).Ensures execute allowed post state ↔
      allowed request state ∧ ∀ choice,
        (next (execute request choice state).1).Ensures execute allowed post
          (execute request choice state).2 :=
  Iff.rfl

theorem ensures_bind {postOther : Other → State → Prop}
    {continuation : Result → Program Call Response Other} :
    (program >>= continuation).Ensures execute allowed postOther state ↔
      program.Ensures execute allowed
        (fun result after => (continuation result).Ensures execute allowed postOther after)
        state := by
  induction program generalizing state with
  | done result => simp
  | call request next ih => simp [ih]

theorem Ensures.imp {weaker : Call → State → Prop} {weakerPost : Result → State → Prop}
    (ensures : program.Ensures execute allowed post state)
    (calls : ∀ request state, allowed request state → weaker request state)
    (results : ∀ result state, post result state → weakerPost result state) :
    program.Ensures execute weaker weakerPost state := by
  induction program generalizing state with
  | done result => exact results _ _ ensures
  | call request next ih =>
      exact ⟨calls _ _ ensures.1, fun choice => ih _ (ensures.2 choice)⟩

/-- Two assertions about one program. -/
theorem Ensures.and {otherAllowed : Call → State → Prop} {otherPost : Result → State → Prop}
    (ensures : program.Ensures execute allowed post state)
    (other : program.Ensures execute otherAllowed otherPost state) :
    program.Ensures execute (fun request state => allowed request state ∧ otherAllowed request state)
      (fun result state => post result state ∧ otherPost result state) state := by
  induction program generalizing state with
  | done result => exact ⟨ensures, other⟩
  | call request next ih =>
      exact ⟨⟨ensures.1, other.1⟩, fun choice => ih _ (ensures.2 choice) (other.2 choice)⟩

/-- A state in which every allowed call is answered alike, and leads to a state
that is related again, ensures the same. -/
theorem Ensures.of_related {related : State → State → Prop} {other : State}
    (ensures : program.Ensures execute allowed post state)
    (calls : ∀ request state other, allowed request state → related state other →
      allowed request other ∧ ∀ choice,
        (execute request choice other).1 = (execute request choice state).1 ∧
          related (execute request choice state).2 (execute request choice other).2)
    (results : ∀ result state other, post result state → related state other → post result other)
    (isRelated : related state other) : program.Ensures execute allowed post other := by
  induction program generalizing state other with
  | done result => exact results _ _ _ ensures isRelated
  | call request next ih =>
      have ⟨isAllowed, alike⟩ := calls request state other ensures.1 isRelated
      apply And.intro isAllowed
      intro choice
      have ⟨same, later⟩ := alike choice
      rw [same]
      exact ih _ (ensures.2 choice) later

/-- An invariant that every call of the program keeps, whatever was answered
before, holds at each call and at the end. -/
theorem Along.ensures {quiet : Call → Prop} {invariant : State → Prop}
    {history : List (Answered Call Response)}
    (along : program.Along (fun _ request => quiet request) (fun _ _ => True) history)
    (kept : ∀ request choice state, quiet request → invariant state →
      invariant (execute request choice state).2)
    (holds : invariant state) :
    program.Ensures execute (fun request state => quiet request ∧ invariant state)
      (fun _ state => invariant state) state := by
  induction program generalizing history state with
  | done result => exact holds
  | call request next ih =>
      refine ⟨⟨along.1, holds⟩, fun choice => ?_⟩
      exact ih _ (along.2 _) (kept request choice state along.1 holds)

/-- What holds of every call of the program, whatever was answered before. -/
theorem Along.ensures_calls {quiet : Call → Prop} {history : List (Answered Call Response)}
    (along : program.Along (fun _ request => quiet request) (fun _ _ => True) history) :
    program.Ensures execute (fun request _ => quiet request) (fun _ _ => True) state := by
  induction program generalizing history state with
  | done result => trivial
  | call request next ih => exact ⟨along.1, fun choice => ih _ (along.2 _)⟩

/-- An invariant that every allowed call keeps holds at each call and at the end. -/
theorem Ensures.keeps {invariant : State → Prop}
    (ensures : program.Ensures execute allowed post state)
    (kept : ∀ request choice state, allowed request state → invariant state →
      invariant (execute request choice state).2)
    (holds : invariant state) :
    program.Ensures execute (fun request state => allowed request state ∧ invariant state)
      (fun result state => post result state ∧ invariant state) state := by
  induction program generalizing state with
  | done result => exact ⟨ensures, holds⟩
  | call request next ih =>
      refine ⟨⟨ensures.1, holds⟩, fun choice => ?_⟩
      exact ih _ (ensures.2 choice) (kept request choice state ensures.1 holds)

/-- A relation between the state at the start and every later state. -/
theorem Along.ensures_related {quiet : Call → Prop} {history : List (Answered Call Response)}
    (along : program.Along (fun _ request => quiet request) (fun _ _ => True) history)
    (related : State → State → Prop) (refl : ∀ state, related state state)
    (kept : ∀ request choice first state, quiet request → related first state →
      related first (execute request choice state).2) :
    program.Ensures execute (fun request after => quiet request ∧ related state after)
      (fun _ after => related state after) state :=
  along.ensures (fun request choice after isQuiet => kept request choice state after isQuiet)
    (refl state)

/-! ### Runs -/

theorem Ensures.calls (ensures : program.Ensures execute allowed post state)
    (choices : Nat → Choice) :
    ∀ made ∈ program.callsAlone execute choices state, allowed made.1 made.2 := by
  induction program generalizing choices state with
  | done result => simp [callsAlone]
  | call request next ih =>
      intro made member
      rcases List.mem_cons.mp member with rfl | member
      · exact ensures.1
      · exact ih _ (ensures.2 (choices 0)) _ made member

theorem Ensures.ends (ensures : program.Ensures execute allowed post state)
    (choices : Nat → Choice) :
    post (program.runAlone execute choices state).1 (program.runAlone execute choices state).2 := by
  induction program generalizing choices state with
  | done result => exact ensures
  | call request next ih => exact ih _ (ensures.2 (choices 0)) _

/-- The choices that are left after the run of a program. -/
def choicesAfter (execute : (request : Call) → Choice → State → Response request × State)
    (program : Program Call Response Result) (choices : Nat → Choice) (state : State) :
    Nat → Choice :=
  fun index => choices ((program.callsAlone execute choices state).length + index)

theorem choicesAfter_done {result : Result} (choices : Nat → Choice) (state : State) :
    (done result : Program Call Response Result).choicesAfter execute choices state = choices := by
  funext index
  exact congrArg choices (Nat.zero_add index)

theorem choicesAfter_call {request : Call} {next : Response request → Program Call Response Result}
    (choices : Nat → Choice) (state : State) :
    (call request next).choicesAfter execute choices state =
      (next (execute request (choices 0) state).1).choicesAfter execute
        (fun index => choices (index + 1)) (execute request (choices 0) state).2 := by
  funext index
  exact congrArg choices (Nat.succ_add_eq_add_succ _ _)

/-- A composition runs its first part and goes on with the choices that are
left. -/
theorem runAlone_bind {continuation : Result → Program Call Response Other}
    (choices : Nat → Choice) (state : State) :
    (program >>= continuation).runAlone execute choices state =
      (continuation (program.runAlone execute choices state).1).runAlone execute
        (program.choicesAfter execute choices state)
        (program.runAlone execute choices state).2 := by
  induction program generalizing choices state with
  | done result =>
      rw [choicesAfter_done]
      rfl
  | call request next ih =>
      rw [choicesAfter_call]
      exact ih _ _ _

theorem callsAlone_bind {continuation : Result → Program Call Response Other}
    (choices : Nat → Choice) (state : State) :
    (program >>= continuation).callsAlone execute choices state =
      program.callsAlone execute choices state ++
        (continuation (program.runAlone execute choices state).1).callsAlone execute
          (program.choicesAfter execute choices state)
          (program.runAlone execute choices state).2 := by
  induction program generalizing choices state with
  | done result =>
      rw [choicesAfter_done]
      rfl
  | call request next ih =>
      rw [choicesAfter_call]
      exact congrArg ((request, state) :: ·) (ih _ _ _)

/-- The assertion says what holds of every run alone. -/
theorem ensures_iff [Inhabited Choice] :
    program.Ensures execute allowed post state ↔
      ∀ choices,
        (∀ made ∈ program.callsAlone execute choices state, allowed made.1 made.2) ∧
          post (program.runAlone execute choices state).1
            (program.runAlone execute choices state).2 := by
  constructor
  · intro ensures choices
    exact ⟨ensures.calls choices, ensures.ends choices⟩
  · intro always
    induction program generalizing state with
    | done result => exact (always fun _ => default).2
    | call request next ih =>
        refine ⟨(always fun _ => default).1 _ List.mem_cons_self, fun choice => ih _ ?_⟩
        intro choices
        -- the environment first takes `choice` and then goes on as `choices`
        have run := always fun | 0 => choice | index + 1 => choices index
        exact ⟨fun made member => run.1 made (List.mem_cons_of_mem _ member), run.2⟩

/-! ### Runs in some circumstances -/

section Circumstances

variable (execute)

/-- The calls of a run alone, each with the choice of the environment and the
state in which it is made. -/
def stepsAlone : Program Call Response Result → (Nat → Choice) → State → List (Call × Choice × State)
  | done _, _, _ => []
  | call request next, choices, state =>
      let answered := execute request (choices 0) state
      (request, choices 0, state) ::
        (next answered.1).stepsAlone (fun index => choices (index + 1)) answered.2

/-- The end is as `post` says whenever the environment chooses as assumed. -/
def EnsuresUnder (assumed : Call → Choice → State → Prop) (post : Result → State → Prop) :
    Program Call Response Result → State → Prop
  | done result, state => post result state
  | call request next, state =>
      ∀ choice, assumed request choice state →
        (next (execute request choice state).1).EnsuresUnder assumed post
          (execute request choice state).2

variable {execute}
variable {assumed : Call → Choice → State → Prop}

theorem ensuresUnder_bind {postOther : Other → State → Prop}
    {continuation : Result → Program Call Response Other} :
    (program >>= continuation).EnsuresUnder execute assumed postOther state ↔
      program.EnsuresUnder execute assumed
        (fun result after => (continuation result).EnsuresUnder execute assumed postOther after)
        state := by
  induction program generalizing state with
  | done result => exact Iff.rfl
  | call request next ih => exact forall_congr' fun choice => forall_congr' fun _ => ih _

theorem EnsuresUnder.imp {weakerPost : Result → State → Prop}
    (ensures : program.EnsuresUnder execute assumed post state)
    (results : ∀ result state, post result state → weakerPost result state) :
    program.EnsuresUnder execute assumed weakerPost state := by
  induction program generalizing state with
  | done result => exact results _ _ ensures
  | call request next ih => exact fun choice isAssumed => ih _ (ensures choice isAssumed)

/-- The program goes on from every answer that the circumstances assumed allow. -/
theorem ensuresUnder_call {request : Call} {next : Response request → Program Call Response Result}
    (answers : ∀ choice response after, assumed request choice state →
      execute request choice state = (response, after) →
        (next response).EnsuresUnder execute assumed post after) :
    (call request next).EnsuresUnder execute assumed post state :=
  fun choice isAssumed => answers choice _ _ isAssumed rfl

theorem EnsuresUnder.of_forall (holds : ∀ result state, post result state) :
    program.EnsuresUnder execute assumed post state := by
  induction program generalizing state with
  | done result => exact holds result state
  | call request next ih => exact fun choice _ => ih _

theorem Ensures.under (ensures : program.Ensures execute allowed post state) :
    program.EnsuresUnder execute assumed post state := by
  induction program generalizing state with
  | done result => exact ensures
  | call request next ih => exact fun choice _ => ih _ (ensures.2 choice)

theorem EnsuresUnder.ends (ensures : program.EnsuresUnder execute assumed post state)
    {choices : Nat → Choice}
    (areAssumed : ∀ step ∈ program.stepsAlone execute choices state,
      assumed step.1 step.2.1 step.2.2) :
    post (program.runAlone execute choices state).1 (program.runAlone execute choices state).2 := by
  induction program generalizing choices state with
  | done result => exact ensures
  | call request next ih =>
      apply ih _ (ensures (choices 0) (areAssumed _ List.mem_cons_self))
      intro step member
      exact areAssumed step (List.mem_cons_of_mem _ member)

/-- The calls of a run are allowed, whatever the environment chose at them. -/
theorem Ensures.steps (ensures : program.Ensures execute allowed post state)
    (choices : Nat → Choice) :
    ∀ step ∈ program.stepsAlone execute choices state, allowed step.1 step.2.2 := by
  induction program generalizing choices state with
  | done result =>
      intro step member
      cases member
  | call request next ih =>
      intro step member
      rcases List.mem_cons.mp member with rfl | member
      · exact ensures.1
      · exact ih _ (ensures.2 (choices 0)) _ step member

theorem stepsAlone_bind {continuation : Result → Program Call Response Other}
    (choices : Nat → Choice) (state : State) :
    (program >>= continuation).stepsAlone execute choices state =
      program.stepsAlone execute choices state ++
        (continuation (program.runAlone execute choices state).1).stepsAlone execute
          (program.choicesAfter execute choices state)
          (program.runAlone execute choices state).2 := by
  induction program generalizing choices state with
  | done result =>
      rw [choicesAfter_done]
      rfl
  | call request next ih =>
      rw [choicesAfter_call]
      exact congrArg ((request, choices 0, state) :: ·) (ih _ _ _)

/-- What holds of every choice holds of the steps of a run. -/
theorem forall_mem_stepsAlone {choices : Nat → Choice} (property : Choice → Prop)
    (holds : ∀ index, property (choices index)) :
    ∀ step ∈ program.stepsAlone execute choices state, property step.2.1 := by
  induction program generalizing choices state with
  | done result =>
      intro step member
      cases member
  | call request next ih =>
      intro step member
      rcases List.mem_cons.mp member with rfl | later
      · exact holds 0
      · exact ih _ (fun index => holds (index + 1)) step later

/-! ### Runs that some circumstances allow -/

variable (execute) in
/-- Some end is as `post` says where the environment chooses as assumed. -/
def MayUnder (assumed : Call → Choice → State → Prop) (post : Result → State → Prop) :
    Program Call Response Result → State → Prop
  | done result, state => post result state
  | call request next, state =>
      ∃ choice, assumed request choice state ∧
        (next (execute request choice state).1).MayUnder assumed post
          (execute request choice state).2

theorem mayUnder_call {request : Call} {next : Response request → Program Call Response Result}
    {choice : Choice} {response : Response request} {after : State}
    (isAssumed : assumed request choice state)
    (executed : execute request choice state = (response, after))
    (may : (next response).MayUnder execute assumed post after) :
    (call request next).MayUnder execute assumed post state := by
  refine ⟨choice, isAssumed, ?_⟩
  rwa [executed]

theorem mayUnder_bind {postOther : Other → State → Prop}
    {continuation : Result → Program Call Response Other} :
    (program >>= continuation).MayUnder execute assumed postOther state ↔
      program.MayUnder execute assumed
        (fun result after => (continuation result).MayUnder execute assumed postOther after) state := by
  induction program generalizing state with
  | done result => exact Iff.rfl
  | call request next ih => exact exists_congr fun choice => and_congr_right fun _ => ih _

theorem MayUnder.imp {weakerPost : Result → State → Prop}
    (may : program.MayUnder execute assumed post state)
    (results : ∀ result state, post result state → weakerPost result state) :
    program.MayUnder execute assumed weakerPost state := by
  induction program generalizing state with
  | done result => exact results _ _ may
  | call request next ih =>
      obtain ⟨choice, isAssumed, may⟩ := may
      exact ⟨choice, isAssumed, ih _ may⟩

/-- What is ensured holds of an end that there may be. -/
theorem EnsuresUnder.of_may {wanted : Result → State → Prop}
    (ensures : program.EnsuresUnder execute assumed post state)
    (may : program.MayUnder execute assumed wanted state) :
    ∃ result last, post result last ∧ wanted result last := by
  induction program generalizing state with
  | done result => exact ⟨result, state, ensures, may⟩
  | call request next ih =>
      obtain ⟨choice, isAssumed, may⟩ := may
      exact ih _ (ensures choice isAssumed) may

end Circumstances

end Program

end Litefunctions
