import Litefunctions.CreatedPaths
import Litefunctions.LeftmostMatches
import Litefunctions.VendorClients

/-!
# Titles of workflow runs

A commit of the portal is titled with the path of its file, and the progress of
the actions takes the name of the function back out of the title of a run.  The
decoder for GitHub drops the title, and the expression that reads it accepts
only names without dots and spaces.
-/

namespace Litefunctions

namespace Portal

open Program LeftmostMatches

namespace ActionHandlers

open FunctionHandlers (CreateFunctionRequest HasCalled createFunction pathOf creationSettings
  shopContext createTotal totalRow)

/-! ### Names in titles -/

/-- The white space of regular expressions. -/
def isSpace (char : Char) : Bool :=
  char ∈ ['\t', '\n', '\x0c', '\r', ' ']

def isNameChar (char : Char) : Bool :=
  char ≠ '.' && !isSpace char && char ≠ '/'

/-- The directories that the expression knows. -/
def nameDirectories : List String :=
  ["go", "rs", "rust", "py", "python", "ts", "typescript", "lua"]

/-- A directory of functions and the name of a file in it. -/
def fileName (directory : String) : List Char → Option (List Char) :=
  behind (directory.toList ++ ['/']) (runTo isNameChar '.')

/-- The group that the expression `functionNameFromPath` matches. -/
def functionNameFromPath (text : String) : Option String :=
  (leftmost (behind "functions/".toList (firstOf (nameDirectories.map fileName)))
    text.toList).map String.ofList

def enrichRun (run : WorkflowRun) : WorkflowRun :=
  let fallback := if run.name ≠ "" then { run with functionName := run.name } else run
  if run.functionName ≠ "" then run
  else if run.displayTitle ≠ "" then
    match functionNameFromPath run.displayTitle with
    | some name => { run with functionName := name }
    | none => fallback
  else fallback

def enrichActionFunctions (progress : ActionsProgress) : ActionsProgress :=
  { progress with runs := progress.runs.map enrichRun }

/-- The message that `Commit` gives to the commit of a file. -/
def commitTitle (path : String) : String :=
  "update " ++ path

/-- The names that the expression can read. -/
def IsPlainName (name : String) : Prop :=
  name ≠ "" ∧ ∀ char ∈ name.toList, isNameChar char = true

theorem isPlainName_of_functionNameFromPath {text name : String}
    (isName : functionNameFromPath text = some name) : IsPlainName name := by
  obtain ⟨chars, found, rfl⟩ := Option.map_eq_some_iff.mp isName
  obtain ⟨before, rest, -, matched⟩ := exists_of_leftmost found
  obtain ⟨file, -, inDirectory⟩ := exists_of_behind matched
  obtain ⟨pattern, member, isFile⟩ := exists_of_firstOf inDirectory
  obtain ⟨directory, -, rfl⟩ := List.mem_map.mp member
  obtain ⟨ending, -, isRun⟩ := exists_of_behind isFile
  obtain ⟨nonempty, accepted⟩ := runTo_eq_some isRun
  constructor
  · rw [Ne, String.ofList_eq_empty_iff]
    exact nonempty
  · rwa [String.toList_ofList]

theorem tag_mem_nameDirectories (language : Language) : language.tag ∈ nameDirectories := by
  cases language <;> decide

theorem slash_notMem_nameDirectories {directory : String} (member : directory ∈ nameDirectories) :
    '/' ∉ directory.toList := by
  have slashless : ∀ directory ∈ nameDirectories, '/' ∉ directory.toList := by decide
  exact slashless directory member

/-- The file in one directory is not read as one of another. -/
theorem firstOf_fileName {directory : String} (member : directory ∈ nameDirectories)
    {file name : List Char} (isRun : runTo isNameChar '.' file = some name) :
    firstOf (nameDirectories.map fileName) (directory.toList ++ '/' :: file) = some name := by
  have reads : fileName directory (directory.toList ++ '/' :: file) = some name := by
    rw [← List.singleton_append, ← List.append_assoc, fileName, behind_append, isRun]
  apply firstOf_eq_some (List.mem_map_of_mem member) reads
  intro pattern isPattern value isValue
  obtain ⟨other, isOther, rfl⟩ := List.mem_map.mp isPattern
  obtain ⟨rest, same, isRest⟩ := exists_of_behind isValue
  rw [List.append_assoc, List.singleton_append, SeparatedText.append_cons_eq_iff] at same
  rcases same with ⟨-, rfl⟩ | ⟨middle, longer, -⟩ | ⟨middle, longer, -⟩
  · exact Option.some.inj (isRest.symm.trans isRun)
  · apply absurd _ (slash_notMem_nameDirectories member)
    rw [longer]
    exact List.mem_append_right _ List.mem_cons_self
  · apply absurd _ (slash_notMem_nameDirectories isOther)
    rw [longer]
    exact List.mem_append_right _ List.mem_cons_self

/-- A plain name is read back from the title of a commit. -/
theorem functionNameFromPath_commitTitle (language : Language) {name : String}
    (isPlain : IsPlainName name) :
    functionNameFromPath (commitTitle (pathOf language name)) = some name := by
  obtain ⟨extension, isExt⟩ : ∃ extension, language.ext.toList = '.' :: extension := by
    cases language <;> exact ⟨_, rfl⟩
  have title : (commitTitle (pathOf language name)).toList =
      "update ".toList ++ ("functions/".toList ++ (language.tag.toList ++ '/' ::
        (name.toList ++ '.' :: extension))) := by
    rw [commitTitle, String.toList_append, FunctionHandlers.pathOf_toList, isExt]
    rfl
  have isRun : runTo isNameChar '.' (name.toList ++ '.' :: extension) = some name.toList := by
    rw [runTo_append isPlain.2 (by decide), if_neg]
    exact fun isEmpty => isPlain.1 (String.toList_eq_nil_iff.mp isEmpty)
  have unmatched : ∀ ending, ending <:+ "update ".toList → ending ≠ [] → ∀ rest,
      behind "functions/".toList (firstOf (nameDirectories.map fileName)) (ending ++ rest) =
        none := by
    intro ending isSuffix nonempty rest
    obtain ⟨first, others, rfl⟩ := List.exists_cons_of_ne_nil nonempty
    apply behind_cons_of_ne
    intro isFirst
    have member : 'f' ∈ "update ".toList := isSuffix.subset (isFirst ▸ List.mem_cons_self)
    exact absurd member (by decide)
  rw [functionNameFromPath, title, leftmost_append _ fun ending isSuffix nonempty =>
    unmatched ending isSuffix nonempty _]
  have found := behind_append "functions/".toList (language.tag.toList ++ '/' ::
    (name.toList ++ '.' :: extension)) (firstOf (nameDirectories.map fileName))
  rw [firstOf_fileName (tag_mem_nameDirectories language) isRun] at found
  rw [leftmost_of_pattern found, Option.map_some, String.ofList_toList]

/-! ### Names of runs -/

/-- Only the job and the step of a run change. -/
theorem getElem?_populateCurrentSteps (toLower : Char → Char)
    (getRunCurrentStep : Nat → Int → Option (String × String)) {runs : List WorkflowRun}
    {index : Nat} {run : WorkflowRun} (isRun : runs[index]? = some run) (lookups : Nat) :
    ∃ job step, (populateCurrentSteps toLower getRunCurrentStep lookups runs)[index]? =
      some { run with currentJob := job, currentStep := step } := by
  obtain ⟨shown, isShown, isSame | ⟨-, job, step, -, isStepped⟩⟩ :=
    exists_shown_of_populated toLower getRunCurrentStep isRun lookups
  · rw [isSame] at isShown
    exact ⟨run.currentJob, run.currentStep, isShown⟩
  · rw [isStepped] at isShown
    exact ⟨job, step, isShown⟩

/-- The name that the progress gives to a run. -/
def shownName (vendor : VendorType) (run : VendorRun) : String :=
  match vendor with
  | .github => run.name
  | .gitea => (functionNameFromPath run.displayTitle).getD run.name

/-- A run without a name takes it from its title, else its own. -/
theorem functionName_enrichRun {run : WorkflowRun} (unnamed : run.functionName = "") :
    (enrichRun run).functionName = (functionNameFromPath run.displayTitle).getD run.name := by
  unfold enrichRun
  extract_lets fallback
  have ownName : fallback.functionName = run.name := by
    by_cases isEmpty : run.name = ""
    · simp only [fallback, isEmpty, ne_eq, not_true_eq_false, if_false, unnamed]
    · simp only [fallback, isEmpty, ne_eq, not_false_eq_true, if_true]
  rw [if_neg (not_not.mpr unnamed)]
  by_cases untitled : run.displayTitle = ""
  · have unmatched : functionNameFromPath "" = none := by decide
    rw [if_neg (not_not.mpr untitled), ownName, untitled, unmatched, Option.getD_none]
  · rw [if_pos untitled]
    cases functionNameFromPath run.displayTitle with
    | some name => rfl
    | none => exact ownName

theorem getD_workflowRun (vendor : VendorType) (run : VendorRun) :
    (functionNameFromPath (vendor.workflowRun run).displayTitle).getD run.name =
      shownName vendor run := by
  cases vendor with
  | github =>
      have unmatched : functionNameFromPath "" = none := by decide
      change (functionNameFromPath "").getD run.name = run.name
      rw [unmatched, Option.getD_none]
  | gitea => rfl

theorem shownName_at (toLower : Char → Char)
    (getRunCurrentStep : Nat → Int → Option (String × String)) (vendor : VendorType)
    {actions : VendorActions} {index : Nat} {run : VendorRun}
    (isRun : actions.workflowRuns[index]? = some run) :
    (enrichActionFunctions (getActionsProgress toLower getRunCurrentStep vendor
      actions)).runs[index]?.map WorkflowRun.functionName = some (shownName vendor run) := by
  have decoded : (actions.workflowRuns.map vendor.workflowRun)[index]? =
      some (vendor.workflowRun run) := by
    rw [List.getElem?_map, isRun, Option.map_some]
  obtain ⟨job, step, stepped⟩ :=
    getElem?_populateCurrentSteps toLower getRunCurrentStep decoded 0
  rw [enrichActionFunctions, getActionsProgress, List.getElem?_map, stepped, Option.map_some,
    Option.map_some, functionName_enrichRun rfl]
  exact congrArg some (getD_workflowRun vendor run)

/-- The client of the vendor and the expression leave a run the name. -/
def KeepsName (vendor : VendorType) (name : String) (run : VendorRun) : Prop :=
  match vendor with
  | .github => run.name = name
  | .gitea => IsPlainName name ∨ functionNameFromPath run.displayTitle = none ∧ run.name = name

theorem shownName_eq_iff {vendor : VendorType} {language : Language} {name : String}
    {run : VendorRun} (titled : run.displayTitle = commitTitle (pathOf language name)) :
    shownName vendor run = name ↔ KeepsName vendor name run := by
  cases vendor with
  | github => exact Iff.rfl
  | gitea =>
      rw [shownName, KeepsName]
      by_cases isPlain : IsPlainName name
      · rw [titled, functionNameFromPath_commitTitle language isPlain]
        exact ⟨fun _ => .inl isPlain, fun _ => rfl⟩
      · cases matched : functionNameFromPath run.displayTitle with
        | none => simp [isPlain]
        | some other =>
            have different : other ≠ name := by
              intro same
              exact isPlain (same ▸ isPlainName_of_functionNameFromPath matched)
            simp [isPlain, different]

section Created

variable {settings : Settings} {c : Context} {req : CreateFunctionRequest}
variable {history : List (Answered PortalCall PortalCall.Response)} {replies : List Reply}

theorem eq_file_of_hasCalled
    (reaches : (createFunction settings c (some req)).Reaches history (.done replies))
    (created : Answers 201 replies) {project path : String}
    (commits : HasCalled history (.repo project (.commit path))) :
    path = req.file := by
  obtain ⟨context, isProject⟩ := FunctionHandlers.exists_project_of_created reaches created
  obtain ⟨answered, member, isCommit⟩ := commits
  have along := FunctionHandlers.createFunction_along settings isProject req
  have creates := along.mem_of_reaches reaches member
  rw [isCommit] at creates
  cases creates
  rfl

/-- A run that is titled with a commit of a created function is shown with its
name exactly where the client of the vendor and the expression leave it. -/
theorem functionName_eq_iff
    (reaches : (createFunction settings c (some req)).Reaches history (.done replies))
    (created : Answers 201 replies) {project path : String}
    (commits : HasCalled history (.repo project (.commit path)))
    (toLower : Char → Char) (getRunCurrentStep : Nat → Int → Option (String × String))
    (vendor : VendorType) {actions : VendorActions} {index : Nat} {run : VendorRun}
    (isRun : actions.workflowRuns[index]? = some run)
    (titled : run.displayTitle = commitTitle path) :
    (enrichActionFunctions (getActionsProgress toLower getRunCurrentStep vendor
      actions)).runs[index]?.map WorkflowRun.functionName = some req.name ↔
        KeepsName vendor req.name run := by
  obtain ⟨language, isLanguage⟩ := FunctionHandlers.exists_language_of_created reaches created
  rw [eq_file_of_hasCalled reaches created commits,
    FunctionHandlers.file_eq_pathOf language isLanguage] at titled
  rw [shownName_at toLower getRunCurrentStep vendor isRun, Option.some.injEq]
  exact shownName_eq_iff titled

end Created

/-- A run of the workflow `ci.yaml` for the commit of `total`. -/
def totalRun (name : String) : VendorRun where
  id := 1001
  name := name
  displayTitle := "update functions/lua/total.lua"
  status := "success"
  conclusion := ""
  headBranch := "main"
  event := "push"
  createdAt := ""
  updatedAt := ""

theorem exists_commit_createTotal :
    ∃ history replies,
      (createFunction creationSettings shopContext (some createTotal)).Reaches history
          (.done replies) ∧ Answers 201 replies ∧
        HasCalled history (.repo "shop" (.commit "functions/lua/total.lua")) := by
  obtain ⟨history, replies, reaches, created⟩ :=
    FunctionHandlers.canCreate_createFunction creationSettings shopContext createTotal rfl
      (by decide) totalRow
  have isProject : shopContext.project = some ⟨.copy [1], "shop"⟩ := rfl
  have along := FunctionHandlers.createFunction_along creationSettings isProject createTotal
  exact ⟨history, replies, reaches, created, (along.of_reaches reaches created).1⟩

theorem totalRun_functionName :
    ∃ history replies,
      (createFunction creationSettings shopContext (some createTotal)).Reaches history
          (.done replies) ∧ Answers 201 replies ∧
        (enrichActionFunctions (getActionsProgress Char.toLower (fun _ _ => none) .gitea
          ⟨1, [totalRun "ci.yaml"]⟩)).runs[0]?.map WorkflowRun.functionName = some "total" := by
  obtain ⟨history, replies, reaches, created, commits⟩ := exists_commit_createTotal
  have isPlain : IsPlainName "total" := ⟨by decide, List.all_eq_true.mp rfl⟩
  exact ⟨history, replies, reaches, created, (functionName_eq_iff reaches created commits
    Char.toLower (fun _ _ => none) .gitea rfl rfl).mpr (.inl isPlain)⟩

/-- With GitHub a run is shown with its own name. -/
theorem githubRun_misnamed :
    ¬ ∀ (settings : Settings) (c : Context) (req : CreateFunctionRequest)
      (history : List (Answered PortalCall PortalCall.Response)) (replies : List Reply)
      (project path : String) (vendor : VendorType) (actions : VendorActions) (index : Nat)
      (run : VendorRun),
      (createFunction settings c (some req)).Reaches history (.done replies) →
      Answers 201 replies →
      HasCalled history (.repo project (.commit path)) →
      actions.workflowRuns[index]? = some run → run.displayTitle = commitTitle path →
      (enrichActionFunctions (getActionsProgress Char.toLower (fun _ _ => none) vendor
        actions)).runs[index]?.map WorkflowRun.functionName = some req.name := by
  intro always
  obtain ⟨history, replies, reaches, created, commits⟩ := exists_commit_createTotal
  have named := always _ _ _ history replies _ _ .github ⟨1, [totalRun "CI"]⟩ 0 _ reaches created
    commits rfl rfl
  rw [shownName_at Char.toLower (fun _ _ => none) .github rfl] at named
  exact absurd named (by decide)

end ActionHandlers

end Portal

end Litefunctions
