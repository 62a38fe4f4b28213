import Mathlib.Data.List.Infix

/-!
# Programs that call a shared environment

A program is a tree of calls: it is finished, or it makes a request and goes
on according to the response.  Each request is one atomic step of whatever
environment executes the program, so the same program can be run alone or
interleaved with others.  This file defines the monad of programs, their
histories, and assertions about every call that a program can ever make.
-/

namespace Litefunctions

/-- A program over requests `Call`, answered in `Response`. -/
inductive Program (Call : Type) (Response : Call → Type) (Result : Type) where
  | done (result : Result)
  | call (request : Call) (next : Response request → Program Call Response Result)

namespace Program

variable {Call : Type} {Response : Call → Type} {Result Other : Type}

/-- Sequential composition. -/
def bind : Program Call Response Result → (Result → Program Call Response Other) →
    Program Call Response Other
  | done result, continuation => continuation result
  | call request next, continuation =>
      call request fun response => (next response).bind continuation

instance : Monad (Program Call Response) where
  pure := done
  bind := bind

/-- The program that makes one request and returns its response. -/
def perform (request : Call) : Program Call Response (Response request) :=
  call request done

@[simp]
theorem pure_eq_done (result : Result) :
    (pure result : Program Call Response Result) = done result :=
  rfl

@[simp]
theorem done_bind (result : Result)
    (continuation : Result → Program Call Response Other) :
    done result >>= continuation = continuation result :=
  rfl

@[simp]
theorem call_bind (request : Call) (next : Response request → Program Call Response Result)
    (continuation : Result → Program Call Response Other) :
    call request next >>= continuation =
      call request fun response => next response >>= continuation :=
  rfl

@[simp]
theorem perform_bind (request : Call)
    (continuation : Response request → Program Call Response Other) :
    perform request >>= continuation = call request continuation :=
  rfl

theorem bind_done (program : Program Call Response Result) : program >>= done = program := by
  induction program with
  | done result => rfl
  | call request next ih => exact congrArg (call request) (funext fun response => ih response)

theorem bind_bind {Last : Type} (program : Program Call Response Result)
    (first : Result → Program Call Response Other) (second : Other → Program Call Response Last) :
    program >>= first >>= second = program >>= fun result => first result >>= second := by
  induction program with
  | done result => rfl
  | call request next ih => exact congrArg (call request) (funext fun response => ih response)

/-! ### Running a program alone -/

/-- Run a program alone in an environment; `choices` resolves, call by call,
what the environment leaves open. -/
def runAlone {Choice State : Type}
    (execute : (request : Call) → Choice → State → Response request × State) :
    Program Call Response Result → (Nat → Choice) → State → Result × State
  | done result, _, state => (result, state)
  | call request next, choices, state =>
      let answered := execute request (choices 0) state
      (next answered.1).runAlone execute (fun index => choices (index + 1)) answered.2

/-! ### Histories -/

variable (Call Response) in
/-- A request together with its response. -/
abbrev Answered : Type := (request : Call) × Response request

/-- After the answered calls of `history` the program goes on as `rest`. -/
def Reaches : Program Call Response Result → List (Answered Call Response) →
    Program Call Response Result → Prop
  | program, [], rest => program = rest
  | program, answered :: history, rest =>
      ∃ next, program = .call answered.1 next ∧ (next answered.2).Reaches history rest

theorem reaches_append {program rest : Program Call Response Result}
    {early late : List (Answered Call Response)} :
    program.Reaches (early ++ late) rest ↔
      ∃ middle, program.Reaches early middle ∧ middle.Reaches late rest := by
  induction early generalizing program with
  | nil => simp [Reaches]
  | cons answered early ih =>
      simp only [List.cons_append, Reaches, ih]
      constructor
      · rintro ⟨next, rfl, middle, before, after⟩
        exact ⟨middle, ⟨next, rfl, before⟩, after⟩
      · rintro ⟨middle, ⟨next, rfl, before⟩, after⟩
        exact ⟨next, rfl, middle, before, after⟩

theorem done_reaches_iff {first last : Result} {history : List (Answered Call Response)} :
    (done first : Program Call Response Result).Reaches history (done last) ↔
      history = [] ∧ first = last := by
  cases history with
  | nil => simp [Reaches]
  | cons answered history => simp [Reaches]

theorem call_reaches_iff {request : Call} {next : Response request → Program Call Response Result}
    {history : List (Answered Call Response)} {result : Result} :
    (call request next).Reaches history (done result) ↔
      ∃ response later, history = ⟨request, response⟩ :: later ∧
        (next response).Reaches later (done result) := by
  cases history with
  | nil => simp [Reaches]
  | cons answered history =>
      constructor
      · rintro ⟨after, same, reaches⟩
        obtain ⟨rfl, sameNext⟩ := Program.call.inj same
        cases sameNext
        exact ⟨answered.2, history, rfl, reaches⟩
      · rintro ⟨response, later, same, reaches⟩
        obtain ⟨rfl, rfl⟩ := List.cons.inj same
        exact ⟨next, rfl, reaches⟩

theorem Reaches.snoc {program : Program Call Response Result}
    {history : List (Answered Call Response)} {request : Call}
    {next : Response request → Program Call Response Result}
    (reaches : program.Reaches history (.call request next))
    (response : Response request) :
    program.Reaches (history ++ [⟨request, response⟩]) (next response) :=
  reaches_append.mpr ⟨_, reaches, next, rfl, rfl⟩

/-! ### Assertions about every call -/

/-- Every call that the program can make, after any responses, satisfies
`assertion` of the calls answered before it; `history` is what was answered
before the program started. -/
def Along (assertion : List (Answered Call Response) → Call → Prop)
    (finished : List (Answered Call Response) → Result → Prop) :
    List (Answered Call Response) → Program Call Response Result → Prop
  | history, done result => finished history result
  | history, call request next =>
      assertion history request ∧
        ∀ response, (next response).Along assertion finished
          (history ++ [⟨request, response⟩])

section Along

variable {assertion : List (Answered Call Response) → Call → Prop}
variable {finished : List (Answered Call Response) → Result → Prop}

@[simp]
theorem along_done {history : List (Answered Call Response)} {result : Result} :
    (done result : Program Call Response Result).Along assertion finished history ↔
      finished history result :=
  Iff.rfl

@[simp]
theorem along_call {history : List (Answered Call Response)} {request : Call}
    {next : Response request → Program Call Response Result} :
    (call request next).Along assertion finished history ↔
      assertion history request ∧
        ∀ response, (next response).Along assertion finished
          (history ++ [⟨request, response⟩]) :=
  Iff.rfl

/-- Assertions along a sequential composition. -/
@[simp]
theorem along_bind {finishedOther : List (Answered Call Response) → Other → Prop}
    {history : List (Answered Call Response)} {program : Program Call Response Result}
    {continuation : Result → Program Call Response Other} :
    (program >>= continuation).Along assertion finishedOther history ↔
      program.Along assertion
        (fun after result => (continuation result).Along assertion finishedOther after)
        history := by
  induction program generalizing history with
  | done result => simp
  | call request next ih => simp [ih]

theorem Along.imp {weaker : List (Answered Call Response) → Call → Prop}
    {weakerFinished : List (Answered Call Response) → Result → Prop}
    {history : List (Answered Call Response)} {program : Program Call Response Result}
    (along : program.Along assertion finished history)
    (calls : ∀ history request, assertion history request → weaker history request)
    (results : ∀ history result, finished history result → weakerFinished history result) :
    program.Along weaker weakerFinished history := by
  induction program generalizing history with
  | done result => exact results _ _ along
  | call request next ih => exact ⟨calls _ _ along.1, fun response => ih response (along.2 response)⟩

theorem Along.map {history : List (Answered Call Response)}
    {program : Program Call Response Result}
    (along : program.Along assertion (fun _ _ => True) history) (convert : Result → Other) :
    (program >>= fun result => done (convert result)).Along assertion (fun _ _ => True) history :=
  along_bind.mpr (along.imp (fun _ _ => id) fun _ _ _ => trivial)

/-- Histories only grow. -/
theorem Along.extends {history : List (Answered Call Response)}
    {program : Program Call Response Result} (along : program.Along assertion finished history) :
    program.Along assertion (fun after result => history <+: after ∧ finished after result)
      history := by
  have grows : ∀ {before after : List (Answered Call Response)}
      {rest : Program Call Response Result}, before <+: after →
      rest.Along assertion finished after →
      rest.Along assertion (fun late result => before <+: late ∧ finished late result) after := by
    intro before after rest initial along
    induction rest generalizing after with
    | done result => exact ⟨initial, along⟩
    | call request next ih =>
        exact ⟨along.1, fun response =>
          ih response (initial.trans (List.prefix_append _ _)) (along.2 response)⟩
  exact grows (List.prefix_refl history) along

/-- What was known before a program starts is known at its calls, if longer
histories keep it. -/
theorem Along.with_past {past : List (Answered Call Response) → Prop}
    {history : List (Answered Call Response)} {program : Program Call Response Result}
    (along : program.Along assertion finished history) (known : past history)
    (grows : ∀ {early late : List (Answered Call Response)}, early <+: late → past early → past late) :
    program.Along (fun before request => assertion before request ∧ past before)
      (fun after result => finished after result ∧ past after) history := by
  induction program generalizing history with
  | done result => exact ⟨along, known⟩
  | call request next ih =>
      refine ⟨⟨along.1, known⟩, fun response => ih response (along.2 response) ?_⟩
      exact grows (List.prefix_append _ _) known

theorem Along.of_reaches {history late : List (Answered Call Response)}
    {program rest : Program Call Response Result}
    (along : program.Along assertion finished history) (reaches : program.Reaches late rest) :
    rest.Along assertion finished (history ++ late) := by
  induction late generalizing history program with
  | nil =>
      rw [show program = rest from reaches] at along
      simpa using along
  | cons answered late ih =>
      obtain ⟨next, rfl, reaches⟩ := reaches
      have later := ih (along.2 answered.2) reaches
      rwa [List.append_assoc] at later

end Along

/-! ### The calls that a program can make -/

/-- Every call that the program can make, after any responses, is as `quiet`
says. -/
def Makes (quiet : Call → Prop) : Program Call Response Result → Prop
  | done _ => True
  | call request next => quiet request ∧ ∀ response, (next response).Makes quiet

theorem Makes.bind {quiet : Call → Prop} {program : Program Call Response Result}
    {continuation : Result → Program Call Response Other} (makes : program.Makes quiet)
    (rest : ∀ result, (continuation result).Makes quiet) :
    (program >>= continuation).Makes quiet := by
  induction program with
  | done result => exact rest result
  | call request next ih => exact ⟨makes.1, fun response => ih response (makes.2 response)⟩

theorem Makes.imp {quiet weaker : Call → Prop} {program : Program Call Response Result}
    (makes : program.Makes quiet) (calls : ∀ request, quiet request → weaker request) :
    program.Makes weaker := by
  induction program with
  | done result => trivial
  | call request next ih => exact ⟨calls request makes.1, fun response => ih response (makes.2 response)⟩

theorem Makes.along {quiet : Call → Prop} {program : Program Call Response Result}
    (makes : program.Makes quiet) (history : List (Answered Call Response)) :
    program.Along (fun _ request => quiet request) (fun _ _ => True) history := by
  induction program generalizing history with
  | done result => trivial
  | call request next ih => exact ⟨makes.1, fun response => ih response (makes.2 response) _⟩

/-! ### Programs over part of the calls -/

section Lift

variable {Whole : Type} {WholeResponse : Whole → Type}

/-- The program with its calls embedded into a larger set of calls. -/
def lift (embed : Call → Whole) (response : ∀ request, WholeResponse (embed request) →
    Response request) : Program Call Response Result → Program Whole WholeResponse Result
  | done result => done result
  | call request next =>
      call (embed request) fun answer => (next (response request answer)).lift embed response

/-- Embedded calls that are always allowed. -/
theorem along_lift {embed : Call → Whole}
    {response : ∀ request, WholeResponse (embed request) → Response request}
    {assertion : List (Answered Whole WholeResponse) → Whole → Prop}
    {finished : List (Answered Whole WholeResponse) → Result → Prop}
    (allowed : ∀ history request, assertion history (embed request))
    {history : List (Answered Whole WholeResponse)} (program : Program Call Response Result)
    (results : ∀ embedded : List (Answered Whole WholeResponse),
      (∀ answered ∈ embedded, ∃ request, answered.1 = embed request) →
      ∀ result, finished (history ++ embedded) result) :
    (program.lift embed response).Along assertion finished history := by
  induction program generalizing history with
  | done result =>
      have finishes := results [] (by simp) result
      rwa [List.append_nil] at finishes
  | call request next ih =>
      refine ⟨allowed _ _, fun answer => ih _ ?_⟩
      intro embedded onlyEmbedded result
      rw [List.append_assoc]
      refine results _ ?_ result
      intro answered member
      rcases List.mem_cons.mp member with rfl | member
      · exact ⟨request, rfl⟩
      · exact onlyEmbedded answered member

section Embeds

variable {embed : Call → Whole}
variable {response : ∀ request, WholeResponse (embed request) → Response request}

variable (embed response) in
/-- What was answered to a program was answered to its embedding. -/
def Embeds (part : List (Answered Call Response)) (whole : List (Answered Whole WholeResponse)) :
    Prop :=
  ∀ answered ∈ part, ∃ answer, response answered.1 answer = answered.2 ∧
    ⟨embed answered.1, answer⟩ ∈ whole

theorem Embeds.snoc {part : List (Answered Call Response)}
    {whole : List (Answered Whole WholeResponse)} (embeds : Embeds embed response part whole)
    (request : Call) (answer : WholeResponse (embed request)) :
    Embeds embed response (part ++ [⟨request, response request answer⟩])
      (whole ++ [⟨embed request, answer⟩]) := by
  intro answered member
  rcases List.mem_append.mp member with old | new
  · obtain ⟨oldAnswer, responseEq, wholeMember⟩ := embeds answered old
    exact ⟨oldAnswer, responseEq, List.mem_append_left _ wholeMember⟩
  · obtain rfl := List.mem_singleton.mp new
    exact ⟨answer, rfl, List.mem_append_right _ List.mem_cons_self⟩

/-- Assertions along an embedded program. -/
theorem Along.lift {assertion : List (Answered Call Response) → Call → Prop}
    {finished : List (Answered Call Response) → Result → Prop}
    {part : List (Answered Call Response)} {whole : List (Answered Whole WholeResponse)}
    {program : Program Call Response Result} (along : program.Along assertion finished part)
    (embeds : Embeds embed response part whole) :
    (program.lift embed response).Along
      (fun before request => ∃ part inner, Embeds embed response part before ∧
        request = embed inner ∧ assertion part inner)
      (fun after result => ∃ part, Embeds embed response part after ∧ finished part result)
      whole := by
  induction program generalizing part whole with
  | done result => exact ⟨part, embeds, along⟩
  | call request next ih =>
      refine ⟨⟨part, request, embeds, rfl, along.1⟩, fun answer => ?_⟩
      exact ih _ (along.2 _) (embeds.snoc request answer)

end Embeds

end Lift

end Program

end Litefunctions
