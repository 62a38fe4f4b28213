import Litefunctions.InterleavedPrograms

/-!
# Programs that rely on each other

A process that shares its state with others can count on what the others leave
as it is.  An agreement says for every process what it relies on and which
calls it may make in which states; calls may also be assumed to find the state
as it should be.  A program that makes only allowed calls, whatever the others
do in between, does so in every run of processes that keep the agreement.
-/

namespace Litefunctions

/-- What processes promise each other about their shared state. -/
structure Agreement (Pid Call Shared : Type) where
  invariant : Shared → Prop
  rely : Pid → Shared → Shared → Prop
  allowed : Pid → Call → Shared → Prop
  assumed : Pid → Call → Shared → Prop
  rely_refl : ∀ pid shared, rely pid shared shared
  rely_trans : ∀ pid {first second third}, rely pid first second → rely pid second third →
    rely pid first third

namespace Agreement

variable {Pid Call Choice Result Other Shared : Type} {Response : Call → Type}

/-- Every allowed call keeps the invariant and what the others rely on. -/
def Kept (agreement : Agreement Pid Call Shared)
    (execute : (request : Call) → Choice → Shared → Option (Response request × Shared)) : Prop :=
  ∀ pid request choice response before after, agreement.invariant before →
    agreement.allowed pid request before → agreement.assumed pid request before →
    execute request choice before = some (response, after) →
      agreement.invariant after ∧ ∀ other, other ≠ pid → agreement.rely other before after

/-- A program of the process `pid` makes only allowed calls and ends as `post`
says, whatever the others do before each of its steps. -/
def Secures (agreement : Agreement Pid Call Shared)
    (execute : (request : Call) → Choice → Shared → Option (Response request × Shared))
    (pid : Pid) (post : Result → Shared → Prop) : Program Call Response Result → Shared → Prop
  | .done result, shared =>
      ∀ later, agreement.rely pid shared later → agreement.invariant later → post result later
  | .call request next, shared =>
      ∀ before, agreement.rely pid shared before → agreement.invariant before →
        agreement.allowed pid request before ∧
          (agreement.assumed pid request before → ∀ choice response after,
            execute request choice before = some (response, after) →
              agreement.Secures execute pid post (next response) after)

variable {agreement : Agreement Pid Call Shared}
variable {execute : (request : Call) → Choice → Shared → Option (Response request × Shared)}
variable {pid : Pid} {post : Result → Shared → Prop} {program : Program Call Response Result}
variable {shared : Shared}

/-! ### Rules -/

/-- It is enough that the program is secure from whatever the others leave. -/
theorem secures_of_later
    (secures : ∀ later, agreement.rely pid shared later → agreement.invariant later →
      agreement.Secures execute pid post program later) :
    agreement.Secures execute pid post program shared := by
  cases program with
  | done result =>
      intro later relied holds
      exact secures later relied holds later (agreement.rely_refl pid later) holds
  | call request next =>
      intro before relied holds
      exact secures before relied holds before (agreement.rely_refl pid before) holds

theorem Secures.stable {later : Shared} (secures : agreement.Secures execute pid post program shared)
    (relied : agreement.rely pid shared later) :
    agreement.Secures execute pid post program later := by
  cases program with
  | done result => exact fun last more => secures last (agreement.rely_trans pid relied more)
  | call request next => exact fun before more => secures before (agreement.rely_trans pid relied more)

theorem Secures.bind {postOther : Other → Shared → Prop}
    {continuation : Result → Program Call Response Other}
    (secures : agreement.Secures execute pid
      (fun result after => agreement.Secures execute pid postOther (continuation result) after)
      program shared) :
    agreement.Secures execute pid postOther (program >>= continuation) shared := by
  induction program generalizing shared with
  | done result => exact secures_of_later secures
  | call request next ih =>
      intro before relied holds
      have ⟨isAllowed, rest⟩ := secures before relied holds
      exact ⟨isAllowed, fun isAssumed choice response after executed =>
        ih response (rest isAssumed choice response after executed)⟩

theorem Secures.imp {weaker : Result → Shared → Prop}
    (secures : agreement.Secures execute pid post program shared)
    (results : ∀ result after, post result after → weaker result after) :
    agreement.Secures execute pid weaker program shared := by
  induction program generalizing shared with
  | done result => exact fun later relied holds => results _ _ (secures later relied holds)
  | call request next ih =>
      intro before relied holds
      have ⟨isAllowed, rest⟩ := secures before relied holds
      exact ⟨isAllowed, fun isAssumed choice response after executed =>
        ih response (rest isAssumed choice response after executed)⟩

/-- A program of quiet calls keeps every fact that no quiet call and none of the
others changes. -/
theorem secures_of_makes {quiet : Call → Prop} {fact : Shared → Prop}
    (makes : program.Makes quiet)
    (isAllowed : ∀ request before, quiet request → agreement.allowed pid request before)
    (relied : ∀ {before after}, agreement.rely pid before after → fact before → fact after)
    (own : ∀ {request choice response before after}, quiet request →
      execute request choice before = some (response, after) → fact before → fact after)
    (holds : fact shared) :
    agreement.Secures execute pid (fun _ after => fact after) program shared := by
  induction program generalizing shared with
  | done result => exact fun later wasRelied _ => relied wasRelied holds
  | call request next ih =>
      intro before wasRelied _
      apply And.intro (isAllowed request before makes.1)
      intro _ choice response after executed
      exact ih response (makes.2 response) (own makes.1 executed (relied wasRelied holds))

/-! ### Runs -/

section Runs

variable [DecidableEq Pid] {first last : Processes Pid Call Response Result Shared}
variable {events : List (Event Pid Call Response Shared)} {post : Pid → Result → Shared → Prop}

/-- The processes of a run keep the agreement. -/
theorem secures_of_ran (kept : agreement.Kept execute)
    (ran : Processes.Ran execute first events last) (holds : agreement.invariant first.shared)
    (secures : ∀ pid, agreement.Secures execute pid (post pid) (first.program pid) first.shared)
    (assumptions : Event.AtEvery
      (fun _ event => agreement.assumed event.pid event.request event.before) events) :
    agreement.invariant last.shared ∧
      ∀ pid, agreement.Secures execute pid (post pid) (last.program pid) last.shared := by
  refine ran.induction (motive := fun _ processes => agreement.invariant processes.shared ∧
    ∀ pid, agreement.Secures execute pid (post pid) (processes.program pid) processes.shared)
    ⟨holds, secures⟩ ?_
  rintro early event late processes next split - ⟨holds, secures⟩ program before ⟨choice, executed⟩
  have own := secures event.pid
  rw [program] at own
  rw [← before] at own holds secures
  have ⟨isAllowed, rest⟩ := own event.before (agreement.rely_refl _ _) holds
  have isAssumed := assumptions early event late split
  have ⟨holdsAfter, relied⟩ :=
    kept event.pid event.request choice event.response event.before event.after holds isAllowed
      isAssumed executed
  apply And.intro holdsAfter
  intro pid
  show agreement.Secures execute pid (post pid)
    (Function.update processes.program event.pid (next event.response) pid) event.after
  by_cases isOwn : pid = event.pid
  · subst isOwn
    rw [Function.update_self]
    exact rest isAssumed choice event.response event.after executed
  · rw [Function.update_of_ne isOwn]
    exact (secures pid).stable (relied pid isOwn)

/-- Every call of a run is allowed. -/
theorem allowed_of_ran (kept : agreement.Kept execute)
    (ran : Processes.Ran execute first events last) (holds : agreement.invariant first.shared)
    (secures : ∀ pid, agreement.Secures execute pid (post pid) (first.program pid) first.shared)
    (assumptions : Event.AtEvery
      (fun _ event => agreement.assumed event.pid event.request event.before) events) :
    Event.AtEvery
      (fun _ event => agreement.allowed event.pid event.request event.before) events := by
  rintro early event late rfl
  obtain ⟨middle, ranEarly, next, program, before, -⟩ := Processes.ran_append.mp ran
  have ⟨holdsThere, securesThere⟩ := secures_of_ran kept ranEarly holds secures assumptions.left
  have own := securesThere event.pid
  rw [program] at own
  rw [before]
  exact (own middle.shared (agreement.rely_refl _ _) holdsThere).1

end Runs

end Agreement

end Litefunctions
