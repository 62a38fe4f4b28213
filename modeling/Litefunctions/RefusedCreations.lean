import Litefunctions.InterleavedPrograms
import Litefunctions.PortalFunctions
import Litefunctions.PortalSpecs
import Litefunctions.RepositoryContents
import Litefunctions.RequestedUpdates

/-!
# Requests to create a function that are refused

A request to create a function writes the file, commits and pushes it, and only
then adds the row.  As long as no commit, no push and no insertion fails, a
request that is not answered with 201 has done nothing, whatever other requests
do meanwhile.  Where one of them fails, what the request has done stays.
-/

namespace Litefunctions

/-! ### Programs that act only to finish well -/

namespace Program

variable {Call : Type} {Response : Call → Type} {Result Other : Type}
variable (carries quiet : (request : Call) → Response request → Prop) (good : Result → Prop)

/-- With these responses the program ends in a good result. -/
def EndsWell : Program Call Response Result → Prop
  | done result => good result
  | call request next =>
      ∀ response, carries request response → (next response).EndsWell

/-- With these responses the program makes only quiet calls until it is sure to
end in a good result. -/
def ActsToEndWell : Program Call Response Result → Prop
  | done _ => True
  | call request next =>
      ∀ response, carries request response →
        (next response).EndsWell carries good ∨ quiet request response ∧ (next response).ActsToEndWell

variable {carries quiet good}

theorem EndsWell.of_reaches {program : Program Call Response Result}
    {history : List (Answered Call Response)} {result : Result}
    (endsWell : program.EndsWell carries good) (reaches : program.Reaches history (.done result))
    (carried : ∀ answered ∈ history, carries answered.1 answered.2) : good result := by
  induction history generalizing program with
  | nil =>
      rw [show program = .done result from reaches] at endsWell
      exact endsWell
  | cons answered history ih =>
      obtain ⟨next, rfl, reaches⟩ := reaches
      apply ih (endsWell answered.2 (carried answered List.mem_cons_self)) reaches
      exact fun later member => carried later (List.mem_cons_of_mem _ member)

/-- A program that did not end well has made only quiet calls. -/
theorem ActsToEndWell.quiet_of_reaches {program : Program Call Response Result}
    {history : List (Answered Call Response)} {result : Result}
    (acts : program.ActsToEndWell carries quiet good)
    (reaches : program.Reaches history (.done result))
    (carried : ∀ answered ∈ history, carries answered.1 answered.2) (notGood : ¬ good result) :
    ∀ answered ∈ history, quiet answered.1 answered.2 := by
  induction history generalizing program with
  | nil =>
      intro answered member
      cases member
  | cons first history ih =>
      obtain ⟨next, rfl, reaches⟩ := reaches
      have later : ∀ answered ∈ history, carries answered.1 answered.2 :=
        fun answered member => carried answered (List.mem_cons_of_mem _ member)
      rcases acts first.2 (carried first List.mem_cons_self) with endsWell | ⟨isQuiet, acts⟩
      · exact absurd (endsWell.of_reaches reaches later) notGood
      · intro answered member
        rcases List.mem_cons.mp member with rfl | member
        · exact isQuiet
        · exact ih acts reaches later answered member

end Program

namespace Portal

open Program

namespace FunctionHandlers

/-- The call does what creating a function needs: a commit succeeds or has
nothing to commit, a push and an insertion succeed. -/
def CarriesThrough : (request : PortalCall) → request.Response → Prop
  | .repo _ (.commit _) => fun response =>
      ∀ err, response = .error err → containsText err.text "clean working tree" = true
  | .repo _ .push => fun response => response = true
  | .query (.function (.createFunction _ _ _ _ _ _)) => fun response =>
      ∀ err, response ≠ .error err
  | _ => fun _ => True

/-- The call leaves the database and the repositories as they are. -/
def IsQuiet : (request : PortalCall) → request.Response → Prop
  | .query statement => fun _ => statement.reads = true
  | .repo _ (.mkdirAll _) => fun _ => True
  | .repo _ (.create _ _) => fun response => response = false
  | _ => fun _ => False

theorem mkdirs_acts {project : String} {directories : List String} {continuation : PortalProgram (List Reply)}
    (acts : continuation.ActsToEndWell CarriesThrough IsQuiet (Answers 201)) :
    (mkdirs project directories >>= fun _ => continuation).ActsToEndWell CarriesThrough IsQuiet
      (Answers 201) := by
  induction directories with
  | nil => exact acts
  | cons directory directories ih => exact fun _ _ => .inr ⟨trivial, ih⟩

/-- After a commit and a push that do not fail the handler goes on. -/
theorem commitAndPush_endsWell {project path : String}
    {continuation : Option (List Reply) → PortalProgram (List Reply)}
    (endsWell : (continuation none).EndsWell CarriesThrough (Answers 201)) :
    (commitAndPush project path (fun err => containsText err.text "clean working tree") >>=
      continuation).EndsWell CarriesThrough (Answers 201) := by
  have pushed : ∀ response : Bool, CarriesThrough (.repo project .push) response →
      ((if response then pure none else pure (some [Reply.error 500 "push error"]) :
        PortalProgram (Option (List Reply))) >>= continuation).EndsWell CarriesThrough
          (Answers 201) := by
    rintro response succeeds
    rw [show response = true from succeeds]
    exact endsWell
  intro response carried
  cases response with
  | ok _ => exact pushed
  | error err =>
      change EndsWell _ _ ((if containsText err.text "clean working tree" then _ else _) >>= _)
      rw [if_pos (carried err rfl)]
      exact pushed

theorem createFunction_acts (settings : Settings) (c : Context)
    (body : Option CreateFunctionRequest) :
    (createFunction settings c body).ActsToEndWell CarriesThrough IsQuiet (Answers 201) := by
  unfold createFunction Context.mustGetProject
  cases c.project with
  | none => trivial
  | some project =>
      cases body with
      | none => trivial
      | some req =>
          dsimp only
          split
          · trivial
          rintro (err | fns) -
          · exact .inr ⟨rfl, trivial⟩
          refine .inr ⟨rfl, ?_⟩
          change ActsToEndWell _ _ _ (if _ then _ else _)
          split
          · trivial
          apply mkdirs_acts
          rintro (_ | _) -
          · exact .inr ⟨rfl, trivial⟩
          left
          apply commitAndPush_endsWell
          rintro (err | fn) inserted
          · exact absurd rfl (inserted err)
          · intro endpoint _ created _
            exact ⟨_, List.mem_cons_self⟩

end FunctionHandlers

namespace Platform

/-! ### Time -/

/-- The platform some time later. -/
def later (delay : Nat) (platform : Platform) : Platform :=
  { platform with world := { platform.world with clock := platform.world.clock + delay } }

theorem later_later (first second : Nat) (platform : Platform) :
    (platform.later first).later second = platform.later (first + second) := by
  simp only [later, Int.natCast_add, Int.add_assoc]

@[simp]
theorem later_zero (platform : Platform) : platform.later 0 = platform := by
  simp [later]

/-- A call some time later is the call after that time. -/
theorem execute_later (request : PortalCall) (circumstance : PortalCall.Circumstance)
    (delay : Nat) (platform : Platform) :
    execute request circumstance (platform.later delay) =
      execute request { circumstance with elapsed := delay + circumstance.elapsed } platform := by
  cases request with
  | repo project call =>
      have sameRepos : platform.repos.execute project call circumstance =
          platform.repos.execute project call
            { circumstance with elapsed := delay + circumstance.elapsed } := by
        cases call <;> rfl
      simp only [execute, later, sameRepos, Int.natCast_add, Int.add_assoc]
  | _ =>
      simp only [execute, PortalCall.execute, PortalCall.textAnswer, later, Int.natCast_add,
        Int.add_assoc]

open FunctionHandlers

/-- Only time passes at a quiet call. -/
theorem execute_of_quiet {request : PortalCall} {circumstance : PortalCall.Circumstance}
    {platform : Platform} (quiet : IsQuiet request (execute request circumstance platform).1) :
    (execute request circumstance platform).2 = platform.later circumstance.elapsed := by
  cases request with
  | query statement =>
      have reads : statement.reads = true := quiet
      simp only [execute, PortalCall.execute]
      cases circumstance.fault with
      | none =>
          simp only [Query.execute_of_reads reads]
          rfl
      | refused => rfl
      | lost =>
          simp only [Query.execute_of_reads reads]
          rfl
  | repo project call =>
      have same : (platform.repos.execute project call circumstance).2 = platform.repos := by
        cases call with
        | mkdirAll path => rfl
        | create path content =>
            change (platform.repos.execute project (.create path content) circumstance).1 = false
              at quiet
            simp only [Repositories.execute] at quiet ⊢
            cases found : platform.repos.clone project with
            | none => rfl
            | some clone =>
                rw [found] at quiet
                by_cases succeeds : circumstance.fault = .none
                · simp [succeeds] at quiet
                · simp [succeeds]
        | _ => cases quiet
      simp only [execute, same]
      rfl
  | _ => cases quiet

/-- Every call is answered. -/
def respond (request : PortalCall) (circumstance : PortalCall.Circumstance) (platform : Platform) :
    Option (request.Response × Platform) :=
  some (platform.execute request circumstance)

/-! ### Runs without a request -/

/-- Requests that the portal handles at the same time. -/
abbrev Requests (Pid : Type) : Type :=
  Processes Pid PortalCall PortalCall.Response (List Reply) Platform

variable {Pid : Type} [DecidableEq Pid]

/-- The same requests without one of them. -/
def without (requests : Requests Pid) (pid : Pid) : Requests Pid :=
  { requests with program := Function.update requests.program pid (.done []) }

/-- The other requests can get their answers without this one, and leave the
remote repositories, the functions and the endpoints as they are. -/
def AsIfNotMade (first : Requests Pid) (pid : Pid) (last : Requests Pid) : Prop :=
  ∃ events others, Processes.Ran respond (without first pid) events others ∧
    (∀ other, other ≠ pid → others.program other = last.program other) ∧
    others.shared.repos.remote = last.shared.repos.remote ∧
    others.shared.world.db.functions = last.shared.world.db.functions ∧
    others.shared.world.db.endpoints = last.shared.world.db.endpoints

/-- The calls of a request at which only time passes can be left out. -/
theorem ran_without {pid : Pid} {program : Pid → PortalProgram (List Reply)}
    {delay : Nat} {platform : Platform} {last : Requests Pid}
    {events : List (Event Pid PortalCall PortalCall.Response Platform)}
    (ran : Processes.Ran respond ⟨platform.later delay, program⟩ events last)
    (quiet : ∀ event ∈ events, event.pid = pid → IsQuiet event.request event.response) :
    ∃ kept others rest, Processes.Ran respond (without ⟨platform, program⟩ pid) kept others ∧
      (∀ other, other ≠ pid → others.program other = last.program other) ∧
      last.shared = others.shared.later rest := by
  induction events generalizing platform program delay with
  | nil =>
      obtain rfl : Processes.mk (platform.later delay) program = last := ran
      exact ⟨[], _, delay, rfl, fun other differs => Function.update_of_ne differs _ _, rfl⟩
  | cons event events ih =>
      obtain ⟨next, programEq, before, ⟨circumstance, executed⟩, ran⟩ := ran
      change event.before = platform.later delay at before
      have answer := Option.some.inj executed
      have laterQuiet : ∀ later ∈ events, later.pid = pid → IsQuiet later.request later.response :=
        fun later member => quiet later (List.mem_cons_of_mem _ member)
      by_cases isOwn : event.pid = pid
      · have isQuiet := quiet event List.mem_cons_self isOwn
        have responseEq : (execute event.request circumstance event.before).1 = event.response :=
          congrArg Prod.fst answer
        have afterEq : event.after = platform.later (delay + circumstance.elapsed) := by
          rw [← responseEq] at isQuiet
          have passed := execute_of_quiet isQuiet
          rw [congrArg Prod.snd answer, before, later_later] at passed
          exact passed
        rw [afterEq] at ran
        obtain ⟨kept, others, rest, ranKept, same, shared⟩ := ih ran laterQuiet
        refine ⟨kept, others, rest, ?_, same, shared⟩
        simpa [without, isOwn] using ranKept
      · rw [before, execute_later] at answer
        rw [← later_zero event.after] at ran
        obtain ⟨kept, others, rest, ranKept, same, shared⟩ := ih ran laterQuiet
        refine ⟨⟨event.pid, event.request, event.response, platform, event.after⟩ :: kept, others,
          rest, ⟨next, ?_, rfl, ⟨_, congrArg some answer⟩, ?_⟩, same, shared⟩
        · exact (Function.update_of_ne isOwn _ _).trans programEq
        · simp only [without] at ranKept ⊢
          rw [Function.update_comm (Ne.symm isOwn)]
          exact ranKept

end Platform

namespace FunctionHandlers

open Portal.Platform

/-- Requests to create functions. -/
def creations {Pid : Type} (settings : Settings)
    (requests : Pid → Context × Option CreateFunctionRequest) (platform : Platform) :
    Requests Pid where
  shared := platform
  program pid := createFunction settings (requests pid).1 (requests pid).2

/-- A request that the portal handles alone can get to these processes. -/
def LeadsTo (platform : Platform) (program : PortalProgram (List Reply)) (last : Requests Unit) :
    Prop :=
  ∃ events, Processes.Ran respond ⟨platform, fun _ => program⟩ events last

theorem LeadsTo.call {platform after : Platform} {request : PortalCall}
    {response : request.Response} {next : request.Response → PortalProgram (List Reply)}
    {last : Requests Unit} {circumstance : PortalCall.Circumstance}
    (executed : platform.execute request circumstance = (response, after))
    (leads : LeadsTo after (next response) last) : LeadsTo platform (.call request next) last := by
  obtain ⟨events, ran⟩ := leads
  refine ⟨⟨(), request, response, platform, after⟩ :: events, next, rfl, rfl,
    ⟨circumstance, congrArg some executed⟩, ?_⟩
  have updated : Function.update (fun _ : Unit => Program.call request next) () (next response) =
      fun _ => next response :=
    funext fun _ => rfl
  rw [updated]
  exact ran

theorem LeadsTo.mkdirs {platform : Platform} {project : String} {directories : List String}
    {continuation : PortalProgram (List Reply)} {last : Requests Unit}
    (leads : LeadsTo platform continuation last) :
    LeadsTo platform (FunctionHandlers.mkdirs project directories >>= fun _ => continuation) last := by
  induction directories with
  | nil => exact leads
  | cons directory directories ih =>
      have same : platform.execute (.repo project (.mkdirAll directory)) {} = ((), platform) := by
        simp [Platform.execute, Repositories.execute]
      exact LeadsTo.call same ih

/-- The file that a request writes. -/
def CreateFunctionRequest.file (req : CreateFunctionRequest) : String :=
  s!"functions/{req.language}/{req.name}{Language.langExt req.language}"

def CreateFunctionRequest.content (req : CreateFunctionRequest) : Bytes :=
  (codeContent req).toUTF8.data.toList

theorem commitFile_ok {repos : Repositories} {project path : String} {clone staged committed : Clone}
    (stages : clone.stage path = some staged)
    (makes : staged.commit repos.nextCommit = some committed) :
    repos.commitFile {} project path clone =
      (.ok (), { repos.setClone project committed with nextCommit := repos.nextCommit + 1 }) := by
  simp [Repositories.commitFile, stages, makes]

theorem push_ok {repos : Repositories} {project : String} {clone : Clone}
    (continues : repos.remote project <:+ clone.commits) :
    repos.push {} project clone =
      (true, { repos with remote := Function.update repos.remote project clone.commits }) := by
  simp [Repositories.push, continues]

/-- A call to a repository that takes no time. -/
theorem execute_repo (project : String) (call : RepoCall) (platform : Platform) :
    platform.execute (.repo project call) {} =
      ((platform.repos.execute project call {}).1,
        { platform with repos := (platform.repos.execute project call {}).2 }) := by
  simp [Platform.execute]

/-- Where the insertion fails, the request is answered with an error and its
code is published. -/
theorem createFunction_published (settings : Settings) (c : Context) (req : CreateFunctionRequest)
    (platform : Platform) (clone : Clone) {project : ProjectContext}
    (isProject : c.project = some project) (known : Language.langExt req.language ≠ "")
    (free : ∀ fn ∈ FunctionQuery.ofProject project.projectUUID platform.world.db,
      fn.name ≠ req.name)
    (found : platform.repos.clone project.projectName = some clone)
    (ahead : platform.repos.remote project.projectName <:+ clone.commits)
    (changes : ¬ SameFiles (clone.index.insert req.file req.content) (headFiles clone.commits)) :
    ∃ last, LeadsTo platform (createFunction settings c (some req)) last ∧
      last.program () = .done [.error 500 "database error"] ∧
      last.shared.repos.published project.projectName req.file = some req.content := by
  have isFree : ¬ (FunctionQuery.ofProject project.projectUUID platform.world.db).any
      (·.name = req.name) := by
    simpa using free
  let written : Clone := { clone with worktree := clone.worktree.insert req.file req.content }
  let staged : Clone := { written with index := clone.index.insert req.file req.content }
  let committed : Clone :=
    { staged with commits := ⟨platform.repos.nextCommit, staged.index⟩ :: clone.commits }
  let created : Platform :=
    { platform with repos := platform.repos.setClone project.projectName written }
  let saved : Platform :=
    { platform with
      repos :=
        { created.repos.setClone project.projectName committed with
          nextCommit := platform.repos.nextCommit + 1 } }
  let pushed : Platform :=
    { platform with
      repos :=
        { saved.repos with
          remote := Function.update platform.repos.remote project.projectName committed.commits } }
  have lists : platform.execute (.query (.function (.listFunctionsForProject project.projectUUID))) {} =
      (.ok (FunctionQuery.ofProject project.projectUUID platform.world.db), platform) := by
    simp [Platform.execute, PortalCall.execute, Query.execute, FunctionQuery.execute]
  have creates : platform.execute (.repo project.projectName (.create req.file req.content)) {} =
      (true, created) := by
    rw [execute_repo]
    simp [Repositories.execute, found, created, written]
  have commits : created.execute (.repo project.projectName (.commit req.file)) {} =
      (.ok (), saved) := by
    have createdClone : created.repos.clone project.projectName = some written := by
      simp [created, Repositories.setClone]
    have stages : written.stage req.file = some staged := by
      simp [Clone.stage, written, staged]
    have makes : staged.commit created.repos.nextCommit = some committed := if_neg changes
    rw [execute_repo]
    simp only [Repositories.execute, createdClone, commitFile_ok stages makes]
    rfl
  have pushes : saved.execute (.repo project.projectName .push) {} = (true, pushed) := by
    have savedClone : saved.repos.clone project.projectName = some committed := by
      simp [saved, Repositories.setClone]
    have continues : saved.repos.remote project.projectName <:+ committed.commits :=
      ahead.trans (List.suffix_cons _ _)
    rw [execute_repo]
    simp only [Repositories.execute, savedClone, push_ok continues]
    rfl
  have inserts : ∀ isAsync userID, (pushed.execute (.query (.function (.createFunction
      project.projectUUID req.name req.language req.file isAsync userID)))
        { fault := .refused }) = (.error .failed, pushed) := by
    intro isAsync userID
    simp [Platform.execute, PortalCall.execute, pushed]
  refine ⟨⟨pushed, fun _ => .done [.error 500 "database error"]⟩, ?_, rfl, ?_⟩
  · unfold createFunction Context.mustGetProject
    rw [isProject]
    dsimp only
    rw [if_neg known]
    apply LeadsTo.call lists
    change LeadsTo _ (if _ then _ else _) _
    rw [if_neg isFree]
    apply LeadsTo.mkdirs
    refine LeadsTo.call creates (LeadsTo.call commits (LeadsTo.call pushes ?_))
    exact LeadsTo.call (inserts req.isAsync c.userID) ⟨[], rfl⟩
  · simp [Repositories.published, pushed, committed, staged, headFiles]

/-! ### A project -/

/-- A project without functions, cloned at its first commit. -/
def emptyProject : Platform where
  world :=
    { totalWorld with
      db :=
        { Database.empty with
          users := .single ⟨[97], "a", "a"⟩
          projects := .single ⟨.copy [1], "shop", [97], 0⟩ } }
  repos :=
    { remote := fun _ => [⟨0, ∅⟩]
      clone := fun _ => some (.of [⟨0, ∅⟩])
      nextCommit := 1 }

def creationSettings : Settings where
  fqdn := "lite.example"
  vcsToken := "token"
  ingestorUrl := "https://lite.example"
  sessionExpiry := none
  toLower := Char.toLower

def createTotal : CreateFunctionRequest where
  name := "total"
  language := "lua"
  code := "return 1"
  path := ""
  isAsync := false

/-- The request asks for the functions of the project, and is refused where one
has the name. -/
theorem createFunction_lists (settings : Settings) (c : Context) (req : CreateFunctionRequest)
    {project : ProjectContext} (isProject : c.project = some project)
    (known : Language.langExt req.language ≠ "") :
    ∃ next,
      createFunction settings c (some req) =
        .call (.query (.function (.listFunctionsForProject project.projectUUID))) next ∧
      ∀ fns : List FunctionRow, fns.any (·.name = req.name) = true →
        next (.ok fns) = .done [.error 409 "function with this name already exists"] := by
  unfold createFunction Context.mustGetProject
  rw [isProject]
  dsimp only
  rw [if_neg known]
  exact ⟨_, rfl, fun fns taken => if_pos taken⟩

/-- Requests that have all been answered stay as they are. -/
theorem eq_of_ran_done {Pid : Type} [DecidableEq Pid] {first last : Requests Pid}
    {events : List (Event Pid PortalCall PortalCall.Response Platform)}
    (ran : Processes.Ran respond first events last)
    (done : ∀ pid, ∃ replies, first.program pid = .done replies) : last = first := by
  cases events with
  | nil => exact Eq.symm ran
  | cons event events =>
      obtain ⟨next, program, -⟩ := ran
      obtain ⟨replies, isDone⟩ := done event.pid
      rw [isDone] at program
      cases program

end FunctionHandlers

end Portal

end Litefunctions
