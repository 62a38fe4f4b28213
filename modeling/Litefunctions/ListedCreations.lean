import Litefunctions.ClonedDirectories
import Litefunctions.FailedDeletions

/-!
# Functions that are created and listed

`CreateFunction` takes any name and derives the path of the file from it.  A
request that is answered with 201 has pushed the file.  The runtimes filter the
names of files, so that some functions are in the repository and in the
database and never listed.
-/

namespace Litefunctions

namespace Portal

open Program

namespace FunctionHandlers

open Portal.Platform

/-! ### Created files are pushed -/

/-- The working tree of the clone has the file. -/
def HasWritten (project path : String) (repos : Repositories) : Prop :=
  ∃ clone, repos.clone project = some clone ∧ path ∈ clone.worktree

/-- The newest commit of the clone has the file. -/
def HasCommitted (project path : String) (repos : Repositories) : Prop :=
  ∃ clone, repos.clone project = some clone ∧ path ∈ headFiles clone.commits

/-- The newest commit of the remote repository has the file. -/
def HasPushed (project path : String) (repos : Repositories) : Prop :=
  path ∈ headFiles (repos.remote project)

/-- Only the error of an empty commit speaks of a clean working tree. -/
def NamesEmptyCommit (request : PortalCall) (circumstance : PortalCall.Circumstance)
    (_ : Platform) : Prop :=
  ∀ project path, request = .repo project (.commit path) →
    containsText circumstance.text "clean working tree" = false

variable {repos : Repositories} {project path : String}
variable {circumstance : PortalCall.Circumstance}

theorem hasWritten_of_create {content : Bytes}
    (created : (repos.execute project (.create path content) circumstance).1 = true) :
    HasWritten project path (repos.execute project (.create path content) circumstance).2 := by
  simp only [Repositories.execute] at created ⊢
  cases found : repos.clone project with
  | none =>
      rw [found] at created
      cases created
  | some clone =>
      rw [found] at created
      by_cases succeeds : circumstance.fault = .none
      · simp [HasWritten, succeeds, Repositories.setClone]
      · simp [succeeds] at created

/-- A file that is written is committed, or it was. -/
theorem HasWritten.committed (written : HasWritten project path repos)
    (isNamed : containsText circumstance.text "clean working tree" = false)
    (tolerated : ∀ err, (repos.execute project (.commit path) circumstance).1 = .error err →
      containsText err.text "clean working tree" = true) :
    HasCommitted project path (repos.execute project (.commit path) circumstance).2 := by
  obtain ⟨clone, found, inTree⟩ := written
  obtain ⟨content, hasContent⟩ := Option.isSome_iff_exists.mp (AList.lookup_isSome.mpr inTree)
  simp only [Repositories.execute, found, Repositories.commitFile, Clone.stage, hasContent]
    at tolerated ⊢
  have noFault : ¬ circumstance.fault = .refused ∧ ¬ circumstance.fault = .lost := by
    constructor
    · intro refused
      have text := tolerated ⟨circumstance.text, false⟩ (by simp [refused])
      rw [isNamed] at text
      cases text
    · intro lost
      have text := tolerated ⟨circumstance.text, false⟩ (by simp [lost])
      rw [isNamed] at text
      cases text
  simp only [noFault, if_false]
  cases makes : (Clone.commit repos.nextCommit
      { clone with index := clone.index.insert path content }) with
  | none =>
      unfold Clone.commit at makes
      split at makes
      · next same =>
          refine ⟨_, Function.update_self _ _ _, ?_⟩
          exact (AList.mem_of_perm same).mp ((AList.mem_insert clone.index).mpr (Or.inl rfl))
      · cases makes
  | some committed =>
      unfold Clone.commit at makes
      split at makes
      · cases makes
      · obtain rfl := Option.some.inj makes
        refine ⟨_, Function.update_self _ _ _, ?_⟩
        exact (AList.mem_insert clone.index).mpr (Or.inl rfl)

theorem HasCommitted.pushed (committed : HasCommitted project path repos)
    (pushes : (repos.execute project .push circumstance).1 = true) :
    HasPushed project path (repos.execute project .push circumstance).2 := by
  obtain ⟨clone, found, inCommit⟩ := committed
  simp only [Repositories.execute, found, Repositories.push, HasPushed] at pushes ⊢
  split at pushes
  · cases pushes
  · next accepted => simpa [accepted] using inCommit

/-- Where a request is answered with 201, the file is pushed. -/
def PushesIfCreated (project path : String) (replies : List Reply) (last : Platform) : Prop :=
  Answers 201 replies → HasPushed project path last.repos

theorem pushesIfCreated_of_error {code : Nat} (isError : code ≠ 201) {text : String}
    {last : Platform} : PushesIfCreated project path [.error code text] last := by
  rintro ⟨body, member⟩
  have same := List.mem_singleton.mp member
  injection same with sameCode
  exact absurd sameCode.symm isError

/-- The file is pushed, or there is an error to answer with. -/
def PushedOrFailed (project path : String) (failed : Option (List Reply)) (last : Platform) : Prop :=
  (failed = none ∧ HasPushed project path last.repos) ∨ ∃ text, failed = some [.error 500 text]

theorem push_pushes {platform : Platform} (committed : HasCommitted project path platform.repos) :
    (onRepo project .push >>= fun pushed =>
      if pushed then pure none else pure (some [.error 500 "push error"]) :
        PortalProgram (Option (List Reply))).EnsuresUnder Platform.execute NamesEmptyCommit
      (PushedOrFailed project path) platform := by
  apply ensuresUnder_call
  intro circumstance pushed last _ executed
  have pushes := execute_repos executed
  cases pushed with
  | false => exact Or.inr ⟨_, rfl⟩
  | true =>
      have isPushed := committed.pushed (congrArg Prod.fst pushes)
      rw [pushes] at isPushed
      exact Or.inl ⟨rfl, isPushed⟩

theorem commitAndPush_pushes {platform : Platform} (written : HasWritten project path platform.repos) :
    (commitAndPush project path (fun err => containsText err.text "clean working tree")).EnsuresUnder
      Platform.execute NamesEmptyCommit (PushedOrFailed project path) platform := by
  unfold commitAndPush
  apply ensuresUnder_call
  intro circumstance answer after isNamed executed
  have commits := execute_repos executed
  have committed (tolerated : ∀ err, answer = .error err →
      containsText err.text "clean working tree" = true) :
      HasCommitted project path after.repos := by
    have hasCommitted := written.committed (isNamed project path rfl) (by rwa [commits])
    rwa [commits] at hasCommitted
  cases answer with
  | ok _ =>
      apply push_pushes
      apply committed
      intro err isError
      cases isError
  | error err =>
      change Program.EnsuresUnder _ _ _
        (if containsText err.text "clean working tree" then _ else _) after
      split
      · next isTolerated =>
          apply push_pushes
          apply committed
          intro other isError
          obtain rfl := Except.error.inj isError
          exact isTolerated
      · exact Or.inr ⟨_, rfl⟩

/-- A call that is no call to a repository leaves them as they are. -/
theorem repos_of_other {request : PortalCall} (isOther : ∀ project call, request ≠ .repo project call)
    {platform after : Platform} {response : request.Response}
    (executed : platform.execute request circumstance = (response, after)) :
    after.repos = platform.repos := by
  cases request with
  | repo project call => exact absurd rfl (isOther project call)
  | _ => exact (congrArg (fun answer => answer.2.repos) executed).symm

theorem mkdirs_ensures {platform : Platform} {directories : List String}
    {assumed : PortalCall → PortalCall.Circumstance → Platform → Prop} :
    (mkdirs project directories).EnsuresUnder Platform.execute assumed (fun _ _ => True) platform := by
  induction directories generalizing platform with
  | nil => trivial
  | cons directory directories ih => exact fun _ _ => ih

/-- A request that is answered with 201 has pushed its file. -/
theorem createFunction_pushes (settings : Settings) (c : Context) (req : CreateFunctionRequest)
    {projectContext : ProjectContext} (isProject : c.project = some projectContext)
    (platform : Platform) :
    (createFunction settings c (some req)).EnsuresUnder Platform.execute NamesEmptyCommit
      (PushesIfCreated projectContext.projectName req.file) platform := by
  unfold createFunction Context.mustGetProject
  rw [isProject]
  dsimp only
  split
  · exact pushesIfCreated_of_error (by decide)
  · apply ensuresUnder_call
    intro listing listed _ _ _
    cases listed with
    | error _ => exact pushesIfCreated_of_error (by decide)
    | ok fns =>
        change Program.EnsuresUnder _ _ _ (if _ then _ else _) _
        split
        · exact pushesIfCreated_of_error (by decide)
        · refine ensuresUnder_bind.mpr (mkdirs_ensures.imp fun _ _ _ => ?_)
          apply ensuresUnder_call
          intro creation created afterCreate _ isCreated
          cases created with
          | false => exact pushesIfCreated_of_error (by decide)
          | true =>
              have creates := execute_repos isCreated
              have written := hasWritten_of_create (congrArg Prod.fst creates)
              rw [creates] at written
              change Program.EnsuresUnder _ _ _ (commitAndPush _ _ _ >>= _) _
              refine ensuresUnder_bind.mpr ((commitAndPush_pushes written).imp ?_)
              rintro failed afterPush (⟨rfl, isPushed⟩ | ⟨text, rfl⟩)
              · apply ensuresUnder_call
                intro insertion inserted afterInsert _ isInserted
                cases inserted with
                | error _ => exact pushesIfCreated_of_error (by decide)
                | ok fn =>
                    apply ensuresUnder_call
                    intro _ _ afterEndpoint _ isEndpoint
                    apply ensuresUnder_call
                    intro _ _ last _ isRegistered _
                    have kept : last.repos = afterPush.repos :=
                      calc
                        last.repos = afterEndpoint.repos := repos_of_other (by rintro _ _ ⟨⟩) isRegistered
                        _ = afterInsert.repos := repos_of_other (by rintro _ _ ⟨⟩) isEndpoint
                        _ = afterPush.repos := repos_of_other (by rintro _ _ ⟨⟩) isInserted
                    rw [kept]
                    exact isPushed
              · exact pushesIfCreated_of_error (by decide)

/-! ### Listings after a refresh -/

/-- The languages whose runtimes list the files of the repository. -/
inductive Interpreted where
  | python
  | ts
  | lua

def Interpreted.language : Interpreted → Language
  | python => .python
  | ts => .ts
  | lua => .lua

/-- The directories of functions of the runtimes of a project. -/
structure RuntimeDirectories where
  python : PythonRuntime.FunctionDirectory
  ts : TsRuntime.FunctionDirectory
  lua : LuaRuntime.FunctionDirectory

/-- The files of the newest commit of the remote repository. -/
def pushedPaths (project : String) (platform : Platform) : List String :=
  (headFiles (platform.repos.remote project)).keys

/-- The runtime lists the name after a refresh from a clone with these files.
In Lua this must not depend on what the commands do that the shell expands. -/
def ListsAfterRefresh (runtime : Interpreted) (project name : String) (paths : List String)
    (elsewhere : List UInt8 → Option EntryKind) (before : RuntimeDirectories) : Prop :=
  match runtime with
  | .python =>
      name ∈ PythonRuntime.listFunctions
        (PythonRuntime.syncRuntimeFunctionsDir (PythonRuntime.clonedDirectory paths) before.python)
  | .ts =>
      name ∈ TsRuntime.listFunctions
        (TsRuntime.syncDirectory (TsRuntime.clonedDirectory paths) before.ts)
  | .lua =>
      ∀ expanded, Passkeys.bytesOf name ∈ LuaRuntime.listFunctions
        (LuaRuntime.syncDirectory expanded (Passkeys.bytesOf project)
          { toDirectory := LuaRuntime.clonedDirectory paths, elsewhere } before.lua)

/-- Which names the refresh lists, given that their files are in the repository. -/
def SurvivesRefresh (runtime : Interpreted) (name : String) (paths : List String)
    (before : RuntimeDirectories) : Prop :=
  match runtime with
  | .python => PythonRuntime.IsListable name
  | .ts => TsRuntime.IsListable name
  | .lua =>
      LuaRuntime.SurvivesCopying (Passkeys.bytesOf name) (LuaRuntime.clonedDirectory paths) before.lua

theorem file_eq {req : CreateFunctionRequest} {runtime : Interpreted}
    (isLanguage : req.language = runtime.language.tag) :
    req.file = "functions/" ++ runtime.language.tag ++ "/" ++ req.name ++ runtime.language.ext := by
  have extension : Language.langExt runtime.language.tag = runtime.language.ext := by
    cases runtime <;> decide +kernel
  rw [CreateFunctionRequest.file, isLanguage, extension]
  rfl

/-- A function that is created is listed after a refresh exactly if its name
survives the refresh. -/
theorem created_listed_iff (settings : Settings) (c : Context) (req : CreateFunctionRequest)
    {projectContext : ProjectContext} (isProject : c.project = some projectContext)
    (platform : Platform) (circumstances : Nat → PortalCall.Circumstance)
    (named : ∀ step ∈ (createFunction settings c (some req)).stepsAlone Platform.execute
      circumstances platform, NamesEmptyCommit step.1 step.2.1 step.2.2)
    (created : Answers 201 ((createFunction settings c (some req)).runAlone Platform.execute
      circumstances platform).1)
    (runtime : Interpreted) (isLanguage : req.language = runtime.language.tag)
    (hosted : runtime = .lua →
      LuaRuntime.IsDeployable (Passkeys.bytesOf projectContext.projectName))
    (elsewhere : List UInt8 → Option EntryKind) (before : RuntimeDirectories) :
    ListsAfterRefresh runtime projectContext.projectName req.name
        (pushedPaths projectContext.projectName
          ((createFunction settings c (some req)).runAlone Platform.execute circumstances
            platform).2) elsewhere before ↔
      SurvivesRefresh runtime req.name
        (pushedPaths projectContext.projectName
          ((createFunction settings c (some req)).runAlone Platform.execute circumstances
            platform).2) before := by
  have pushed := (createFunction_pushes settings c req isProject platform).ends named created
  rw [file_eq isLanguage] at pushed
  generalize ((createFunction settings c (some req)).runAlone Platform.execute circumstances
    platform).2 = last at pushed ⊢
  have isPath := AList.mem_keys.mp pushed
  cases runtime with
  | python => exact PythonRuntime.listed_iff_isListable isPath before.python
  | ts => exact TsRuntime.listed_iff_isListable isPath before.ts
  | lua =>
      apply LuaRuntime.listed_iff_survives (hosted rfl)
      exact LuaRuntime.found_of_pushed isPath

/-! ### Names that are not listed -/

/-- The directories of runtimes that have not refreshed. -/
def emptyDirectories : RuntimeDirectories where
  python := ⟨∅, fun name member => absurd member (AList.notMem_empty name)⟩
  ts := ⟨∅, fun name member => absurd member (AList.notMem_empty name)⟩
  lua := ⟨∅, fun name member => absurd member (AList.notMem_empty name)⟩

/-- The request to create a function of this name, without faults. -/
def creationRun (runtime : Interpreted) (name : String) : List Reply × Platform :=
  (createFunction creationSettings shopContext
    (some { createTotal with name, language := runtime.language.tag })).runAlone Platform.execute
      (fun _ => {}) emptyProject

def creationPaths (runtime : Interpreted) (name : String) : List String :=
  pushedPaths "shop" (creationRun runtime name).2

theorem runAlone_mkdirs {Result : Type} (directories : List String)
    (continuation : PortalProgram Result) (platform : Platform) :
    (mkdirs project directories >>= fun _ => continuation).runAlone Platform.execute (fun _ => {})
        platform =
      continuation.runAlone Platform.execute (fun _ => {}) platform := by
  induction directories with
  | nil => rfl
  | cons directory directories ih =>
      have same : platform.execute (.repo project (.mkdirAll directory)) {} = ((), platform) := by
        simp [Platform.execute, Repositories.execute]
      calc
        (mkdirs project (directory :: directories) >>= fun _ => continuation).runAlone
              Platform.execute (fun _ => {}) platform =
            (mkdirs project directories >>= fun _ => continuation).runAlone Platform.execute
              (fun _ => {}) (platform.execute (.repo project (.mkdirAll directory)) {}).2 := rfl
        _ = continuation.runAlone Platform.execute (fun _ => {}) platform := by rw [same, ih]

theorem runAlone_listing (next : Except DbError (List FunctionRow) → PortalProgram (List Reply)) :
    (functionQuery (.listFunctionsForProject (.copy [1])) >>= next).runAlone Platform.execute
        (fun _ => {}) emptyProject =
      (next (.ok [])).runAlone Platform.execute (fun _ => {}) emptyProject := by
  rfl

theorem creationRun_answers {runtime : Interpreted} {name : String}
    (isRun : (runtime, name) ∈ [(.python, "sum__all"), (.ts, "sum.all"), (.lua, "sum/all"),
      (.lua, "total")]) :
    Answers 201 (creationRun runtime name).1 := by
  have created : ∃ body, (creationRun runtime name).1 = [.json 201 body] := by
    have known : ¬ Language.langExt runtime.language.tag = "" := by
      cases runtime <;> decide +kernel
    unfold creationRun createFunction Context.mustGetProject
    dsimp only [shopContext]
    rw [if_neg known, runAlone_listing]
    dsimp only
    rw [List.any_nil, if_neg Bool.false_ne_true, runAlone_mkdirs]
    simp only [List.mem_cons, Prod.mk.injEq, List.not_mem_nil, or_false] at isRun
    rcases isRun with ⟨rfl, rfl⟩ | ⟨rfl, rfl⟩ | ⟨rfl, rfl⟩ | ⟨rfl, rfl⟩ <;> exact ⟨_, by rfl⟩
  obtain ⟨body, isAnswer⟩ := created
  exact ⟨body, isAnswer ▸ List.mem_singleton_self _⟩

theorem created_listed_iff_total :
    ListsAfterRefresh .lua "shop" "total" (creationPaths .lua "total") (fun _ => none)
        emptyDirectories ↔
      SurvivesRefresh .lua "total" (creationPaths .lua "total") emptyDirectories := by
  have created : Answers 201 (creationRun .lua "total").1 := creationRun_answers (by simp)
  refine created_listed_iff creationSettings shopContext createTotal rfl emptyProject (fun _ => {})
    ?_ created .lua rfl ?_ (fun _ => none) emptyDirectories
  · intro step member project path _
    have noText := forall_mem_stepsAlone (fun circumstance : PortalCall.Circumstance =>
      containsText circumstance.text "clean working tree" = false) (fun _ => by decide +kernel)
      step member
    exact noText
  · intro _
    change LuaRuntime.IsDeployable (Passkeys.bytesOf "shop")
    decide +kernel

/-- Each filter leaves out a name that the portal accepts. -/
theorem filteredNames_unlisted :
    (Answers 201 (creationRun .python "sum__all").1 ∧
        ¬ ListsAfterRefresh .python "shop" "sum__all" (creationPaths .python "sum__all")
          (fun _ => none) emptyDirectories) ∧
      (Answers 201 (creationRun .ts "sum.all").1 ∧
        ¬ ListsAfterRefresh .ts "shop" "sum.all" (creationPaths .ts "sum.all")
          (fun _ => none) emptyDirectories) ∧
      Answers 201 (creationRun .lua "sum/all").1 ∧
        ¬ ListsAfterRefresh .lua "shop" "sum/all" (creationPaths .lua "sum/all")
          (fun _ => none) emptyDirectories := by
  refine ⟨⟨creationRun_answers (by simp), ?_⟩, ⟨creationRun_answers (by simp), ?_⟩,
    creationRun_answers (by simp), ?_⟩
  · intro listed
    have noMark := (PythonRuntime.mem_listFunctions_sync.mp listed).2
    exact noMark (by decide +kernel)
  · intro listed
    have listable := (TsRuntime.mem_listFunctions_sync.mp listed).2
    exact absurd listable (by decide +kernel)
  · intro listed
    obtain ⟨-, isLine⟩ := LuaRuntime.mem_listFunctions.mp (listed fun _ directory => directory)
    exact isLine.bytes_notMem.1 (by decide +kernel)

end FunctionHandlers

end Portal

end Litefunctions
