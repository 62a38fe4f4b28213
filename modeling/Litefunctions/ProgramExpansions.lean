import Litefunctions.Programs

/-!
# Calls that are programs themselves

A call of a program can stand for calls of the same kind.  Expanding it lets
other programs run in between.  What is known along the program is known along
its expansion, if each call's own program leads from what corresponds to the
history before the call to what corresponds to the history after it.
-/

namespace Litefunctions

namespace Program

variable {Call Result : Type} {Response : Call → Type}

/-- The program with a program in place of each call. -/
def expand (inner : (request : Call) → Program Call Response (Response request)) :
    Program Call Response Result → Program Call Response Result
  | done result => done result
  | call request next => inner request >>= fun response => (next response).expand inner

variable {inner : (request : Call) → Program Call Response (Response request)}
variable {assertion innerAssertion : List (Answered Call Response) → Call → Prop}
variable {finished : List (Answered Call Response) → Result → Prop}
variable {corresponds : List (Answered Call Response) → List (Answered Call Response) → Prop}

theorem Along.expand {program : Program Call Response Result}
    {history expanded : List (Answered Call Response)}
    (along : program.Along assertion finished history) (before : corresponds history expanded)
    (each : ∀ early late request, corresponds early late → assertion early request →
      (inner request).Along innerAssertion
        (fun after response => corresponds (early ++ [⟨request, response⟩]) after) late) :
    (program.expand inner).Along innerAssertion
      (fun after result => ∃ early, corresponds early after ∧ finished early result) expanded := by
  induction program generalizing history expanded with
  | done result => exact ⟨history, before, along⟩
  | call request next ih =>
      apply along_bind.mpr
      apply (each history expanded request before along.1).imp fun _ _ => id
      intro after response corresponding
      exact ih response (along.2 response) corresponding

end Program

end Litefunctions
