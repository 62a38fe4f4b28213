import Litefunctions.ActionTitles
import Litefunctions.PrioritySearches

/-!
# Build badges on the page of endpoints

The page of endpoints shows a badge for each function.  It picks one of the runs
that the progress of the actions lists, newest first, and shows how that run
ended.  A run that succeeded is preferred to all runs that ended otherwise,
however old it is.
-/

namespace Litefunctions

namespace Portal

namespace EndpointPage

open LeftmostMatches PrioritySearches

/-! ### Values of scripts -/

/-- A value of a script, with its text as `String` gives it. -/
inductive PageValue where
  | undefined
  | null
  | boolean (value : Bool)
  | number (isZero : Bool) (text : String)
  | string (text : String)
  | object (text : String)
  deriving DecidableEq, Repr

namespace PageValue

/-- Whether a value counts as true in a condition. -/
def truthy : PageValue → Bool
  | undefined => false
  | null => false
  | boolean value => value
  | number isZero _ => !isZero
  | string text => text ≠ ""
  | object _ => true

/-- `String(value)`. -/
def text : PageValue → String
  | undefined => "undefined"
  | null => "null"
  | boolean value => if value then "true" else "false"
  | number _ text => text
  | string text => text
  | object text => text

/-- `value || other`. -/
def or (value other : PageValue) : PageValue :=
  if value.truthy then value else other

theorem or_or_of_truthy {first second : PageValue} (isTrue : (first.or second).truthy = true)
    (other : PageValue) : first.or (second.or other) = first.or second := by
  unfold or at isTrue ⊢
  split at isTrue
  · next isFirst => rw [if_pos isFirst, if_pos isFirst]
  · next isSecond => rw [if_neg isSecond, if_neg isSecond, if_pos isTrue]

end PageValue

/-- A run as the page reads it: the value of each of its properties. -/
abbrev PageRun : Type := String → PageValue

/-- A run with the given properties and no others. -/
def PageRun.ofFields (fields : List (String × PageValue)) : PageRun :=
  fun key => (fields.lookup key).getD .undefined

/-- `toLowerCase`, which is known for the letters of ASCII. -/
structure TextLowering where
  toLowerCase : String → String
  ascii : ∀ text : String, (text.toList.all fun char => char.toNat < 128) = true →
    toLowerCase text = String.ofList (text.toList.map Char.toLower)

/-- The white space of `trim` and of regular expressions. -/
def isBlank (char : Char) : Bool :=
  char ∈ ['\t', '\n', '\x0b', '\x0c', '\r', ' ', '\u00a0', '\u1680', '\u2028', '\u2029', '\u202f',
    '\u205f', '\u3000', '\ufeff'] ∨ 0x2000 ≤ char.toNat ∧ char.toNat ≤ 0x200a

def trimText (text : String) : String :=
  String.ofList (((text.toList.dropWhile isBlank).reverse.dropWhile isBlank).reverse)

def failureWords : List String :=
  ["failure", "failed", "cancelled", "canceled", "error", "timed_out"]

/-! ### Runs of a function -/

section Page

variable (lowering : TextLowering)

def isInProgress (run : PageRun) : Bool :=
  let rawStatus := (run "status").or (run "Status")
  if rawStatus.truthy then
    lowering.toLowerCase rawStatus.text ∈ ["in_progress", "queued", "waiting", "running"]
  else
    false

def normalizeName (val : PageValue) : String :=
  lowering.toLowerCase (trimText (val.or (.string "")).text)

def getRunName (run : PageRun) : String :=
  normalizeName lowering ((run "FunctionName").or ((run "function_name").or
    ((run "WorkflowName").or ((run "workflow_name").or ((run "Name").or
      ((run "name").or (.string "")))))))

/-- The characters of a name in the expression of `extractFunctionName`. -/
def isTitleChar (char : Char) : Bool :=
  char ≠ '.' && !isBlank char && char ≠ '/'

def extractFunctionName (run : PageRun) : String :=
  let title := lowering.toLowerCase
    ((run "DisplayTitle").or ((run "display_title").or (.string ""))).text
  if title = "" then ""
  else
    let inDirectory := fun directory : String =>
      behind (directory.toList ++ ['/']) (runTo isTitleChar '.')
    let matched := leftmost (behind "functions/".toList
      (firstOf (ActionHandlers.nameDirectories.map inDirectory))) title.toList
    matched.elim "" String.ofList

/-- The test by which `pickRunForFunction` filters. -/
def isNamed (target : String) (run : PageRun) : Bool :=
  getRunName lowering run = target || extractFunctionName lowering run = target

def pickRunForFunction (runs : List PageRun) (functionName : String) : Option (List PageRun) :=
  let target := normalizeName lowering (.string functionName)
  if target = "" then none
  else
    let matching := runs.filter (isNamed lowering target)
    if matching = [] then none else some matching

/-- The status and the conclusion of a run. -/
def normalizeStatus (run : PageRun) : String × String :=
  (lowering.toLowerCase ((run "status").or ((run "Status").or (.string ""))).text,
    lowering.toLowerCase ((run "conclusion").or ((run "Conclusion").or (.string ""))).text)

def isRunSuccess (run : PageRun) : Bool :=
  let (status, conclusion) := normalizeStatus lowering run
  if conclusion = "success" ∨ status = "success" then true
  else status = "completed" ∧ conclusion = ""

def jobNameForRun (run : PageRun) : String :=
  normalizeName lowering ((run "CurrentJob").or ((run "current_job").or
    ((run "Name").or ((run "name").or (.string "")))))

def normalizeLanguage (language : String) : String :=
  let lang := normalizeName lowering (.string language)
  if lang = "rs" then "rust" else lang

def getRelevantJobs (language : String) : List String :=
  match normalizeLanguage lowering language with
  | "go" => ["build-go"]
  | "rust" => ["build-rust"]
  | "python" => ["hook-python"]
  | "ts" => ["hook-ts"]
  | "lua" => ["hook-lua"]
  | _ => []

/-- Whether a job has one of the names in its own. -/
def includesSome (relevant : List String) (job : String) : Bool :=
  relevant.any fun name => name.toList <:+: job.toList

def isRelevantRunForLanguage (language : String) (run : PageRun) : Bool :=
  let relevant := getRelevantJobs lowering language
  if relevant = [] then true
  else
    let job := jobNameForRun lowering run
    if job = "" then false else includesSome relevant job

def pickRunForFunctionAndLanguage (runs : List PageRun) (functionName language : String) :
    Option PageRun :=
  match pickRunForFunction lowering runs functionName with
  | none => none
  | some matching =>
      match matching.find? fun run => isInProgress lowering run &&
          isRelevantRunForLanguage lowering language run with
      | some activeRelevant => some activeRelevant
      | none =>
          match matching.find? fun run => isRunSuccess lowering run &&
              isRelevantRunForLanguage lowering language run with
          | some successRelevant => some successRelevant
          | none => (matching.find? (isInProgress lowering)).or matching.head?

/-! ### Badges -/

/-- `value === word`. -/
def isWord (value : PageValue) (word : String) : Bool :=
  value = .string word

def runningClass : String :=
  "border-[#6b3f17] bg-[#4a2a0c]/40 text-[#e5b07b] hover:bg-[#4a2a0c]/60"

def successClass : String :=
  "border-green-700/60 bg-green-700/15 text-green-300 hover:bg-green-700/30"

def failureClass : String :=
  "border-red-700/60 bg-red-700/15 text-red-300 hover:bg-red-700/30"

def neutralClass : String :=
  "border-neutral-700 bg-neutral-800/50 text-neutral-300 hover:bg-neutral-800"

def statusClass (status conclusion : PageValue) (running : Bool) : String :=
  if running then runningClass
  else if isWord conclusion "success" || isWord status "success" then successClass
  else if failureWords.any (isWord conclusion) || failureWords.any (isWord status) then
    failureClass
  else neutralClass

def nameOrBuild (run : PageRun) : String :=
  ((run "Name").or ((run "name").or (.string "Build"))).text

def statusLabel (run : PageRun) (running : Bool) : String :=
  let name := nameOrBuild run
  if running then s!"Running: {name}"
  else
    let (status, conclusion) := normalizeStatus lowering run
    if conclusion = "success" ∨ status = "success" then s!"Success: {name}"
    else if conclusion ∈ failureWords ∨ status ∈ failureWords then s!"Failed: {name}"
    else if status ≠ "" then s!"{status}: {name}"
    else name

def isRelevantCurrentJob (language : String) (currentJob : PageValue) : Bool :=
  let relevant := getRelevantJobs lowering language
  if relevant = [] then true
  else
    let job := normalizeName lowering currentJob
    if job = "" then true else includesSome relevant job

/-- The attributes of an endpoint that its card carries. -/
structure Card where
  functionName : String
  language : String
  isAsync : Bool
  deriving DecidableEq, Repr

/-- What the page sets on a card: the badge, the text below it unless it is
hidden, and which of the test buttons are shown. -/
structure BuildButtons where
  href : String
  className : String
  label : String
  stepLabel : Option String
  testShown : Bool
  wsTestShown : Bool
  deriving DecidableEq, Repr

def badgeClass (cls : String) : String :=
  "px-3 py-1.5 rounded-lg border text-xs font-semibold tracking-wide transition " ++ cls

theorem badgeClass_inj {first second : String} :
    badgeClass first = badgeClass second ↔ first = second :=
  String.append_right_inj _

/-- A property of the run that is displayed, if there is one. -/
def property (display : Option PageRun) (key : String) : PageValue :=
  display.elim .undefined fun run => run key

/-- What `updateBuildButtons` sets on one card. -/
def updateBuildButtons (runs : List PageRun) (card : Card) : BuildButtons :=
  let display := pickRunForFunctionAndLanguage lowering runs card.functionName card.language
  let baseRunning := display.elim false (isInProgress lowering)
  let url := (property display "HTMLURL").or ((property display "htmlurl").or (.string ""))
  let jobName := (property display "CurrentJob").or
    ((property display "current_job").or (.string ""))
  let stepName := (property display "CurrentStep").or
    ((property display "current_step").or (.string ""))
  let relevantRunning := baseRunning && isRelevantCurrentJob lowering card.language jobName
  let effectiveStatus :=
    if baseRunning && !relevantRunning then .string "success"
    else (property display "status").or (property display "Status")
  let effectiveConclusion :=
    if baseRunning && !relevantRunning then .string "success"
    else (property display "conclusion").or (property display "Conclusion")
  let cls := statusClass effectiveStatus effectiveConclusion relevantRunning
  let label :=
    match display with
    | none => "No Actions"
    | some run =>
        if baseRunning && !relevantRunning then
          s!"Success: {(jobName.or (.string (nameOrBuild run))).text}"
        else statusLabel lowering run relevantRunning
  let stepText :=
    if stepName.truthy then
      if jobName.truthy then .string s!"{jobName.text} • {stepName.text}" else stepName
    else jobName
  { href := if url.truthy then url.text else "#"
    className := badgeClass cls
    label
    stepLabel := if stepText.truthy then some s!"Step: {stepText.text}" else none
    testShown := !card.isAsync && !relevantRunning
    wsTestShown := card.isAsync }

/-- A badge that is green or says so. -/
def ShowsSuccess (buttons : BuildButtons) : Prop :=
  buttons.className = badgeClass successClass ∨ ∃ name : String, buttons.label = s!"Success: {name}"

/-! ### Failed runs -/

/-- The runs of a function; no run is one of a function without a name. -/
def isRunOf (functionName : String) (run : PageRun) : Bool :=
  let target := normalizeName lowering (.string functionName)
  target ≠ "" && isNamed lowering target run

/-- The runs that the page labels as failed. -/
def isRunFailure (run : PageRun) : Bool :=
  let (status, conclusion) := normalizeStatus lowering run
  ¬ (conclusion = "success" ∨ status = "success") ∧
    (conclusion ∈ failureWords ∨ status ∈ failureWords)

/-- A failed run is picked for the function and the badge shows no success. -/
def ShowsFailure (runs : List PageRun) (card : Card) : Prop :=
  (∃ run, pickRunForFunctionAndLanguage lowering runs card.functionName card.language = some run ∧
    isRunFailure lowering run = true) ∧ ¬ ShowsSuccess (updateBuildButtons lowering runs card)

/-- No run of the function is in progress, and its newest relevant run failed. -/
structure LatestFailed (runs : List PageRun) (card : Card) (latest : PageRun) : Prop where
  idle : ∀ run ∈ runs, isRunOf lowering card.functionName run = true →
    isInProgress lowering run = false
  isLatest : (runs.find? fun run => isRunOf lowering card.functionName run &&
    isRelevantRunForLanguage lowering card.language run) = some latest
  failed : isRunFailure lowering latest = true

theorem filter_isRunOf (runs : List PageRun) (functionName : String) :
    runs.filter (isRunOf lowering functionName) =
      (pickRunForFunction lowering runs functionName).getD [] := by
  rw [pickRunForFunction]
  by_cases unnamed : normalizeName lowering (.string functionName) = ""
  · rw [if_pos unnamed, Option.getD_none, List.filter_eq_nil_iff]
    intro run _
    simp [isRunOf, unnamed]
  · have same : isRunOf lowering functionName =
        isNamed lowering (normalizeName lowering (.string functionName)) := by
      ext run
      simp [isRunOf, unnamed]
    rw [if_neg unnamed, same]
    by_cases noRun :
        runs.filter (isNamed lowering (normalizeName lowering (.string functionName))) = []
    · rw [if_pos noRun, noRun, Option.getD_none]
    · rw [if_neg noRun, Option.getD_some]

/-- The four searches of `pickRunForFunctionAndLanguage`. -/
def preferences (language : String) : List (PageRun → Bool) :=
  [fun run => isInProgress lowering run && isRelevantRunForLanguage lowering language run,
    fun run => isRunSuccess lowering run && isRelevantRunForLanguage lowering language run,
    isInProgress lowering, fun _ => true]

theorem pickRunForFunctionAndLanguage_eq (runs : List PageRun) (functionName language : String) :
    pickRunForFunctionAndLanguage lowering runs functionName language =
      search (preferences lowering language) (runs.filter (isRunOf lowering functionName)) := by
  rw [filter_isRunOf, pickRunForFunctionAndLanguage]
  cases pickRunForFunction lowering runs functionName with
  | none => rfl
  | some matching =>
      rw [Option.getD_some, preferences, search_cons, search_cons, search_cons, search_cons,
        find?_true, search_nil, Option.or_none]
      dsimp only
      cases matching.find? fun run => isInProgress lowering run &&
          isRelevantRunForLanguage lowering language run with
      | some active => rfl
      | none =>
          cases matching.find? fun run => isRunSuccess lowering run &&
              isRelevantRunForLanguage lowering language run with
          | some success => rfl
          | none => rfl

theorem not_isRunFailure_of_isRunSuccess {run : PageRun}
    (succeeded : isRunSuccess lowering run = true) : isRunFailure lowering run = false := by
  unfold isRunSuccess at succeeded
  unfold isRunFailure
  generalize normalizeStatus lowering run = ended at succeeded ⊢
  obtain ⟨status, conclusion⟩ := ended
  dsimp only at succeeded ⊢
  split at succeeded
  · next isSuccess => simp [isSuccess]
  · obtain ⟨rfl, rfl⟩ := of_decide_eq_true succeeded
    decide

section Idle

variable {runs : List PageRun} {functionName language : String}
variable (idle : ∀ run ∈ runs, isRunOf lowering functionName run = true →
  isInProgress lowering run = false)

include idle

/-- Without a run in progress the first successful relevant run is picked, else
the first run. -/
theorem pick_of_idle :
    pickRunForFunctionAndLanguage lowering runs functionName language =
      (runs.find? fun run => isRunOf lowering functionName run && (isRunSuccess lowering run &&
        isRelevantRunForLanguage lowering language run)).or
        (runs.find? (isRunOf lowering functionName)) := by
  have noneActive : ∀ run ∈ runs.filter (isRunOf lowering functionName),
      isInProgress lowering run = false := by
    intro run member
    rw [List.mem_filter] at member
    exact idle run member.1 member.2
  have noneRelevant : ∀ run ∈ runs.filter (isRunOf lowering functionName),
      (isInProgress lowering run && isRelevantRunForLanguage lowering language run) = false := by
    intro run member
    rw [noneActive run member, Bool.false_and]
  rw [pickRunForFunctionAndLanguage_eq, preferences, search_cons_of_none noneRelevant, search_cons,
    search_cons_of_none noneActive, search_cons, find?_true, search_nil, Option.or_none,
    List.find?_filter, List.head?_filter]
  simp only [Bool.decide_and, Bool.decide_eq_true]

/-- A failed run is picked where no relevant run succeeded and the first run failed. -/
theorem picks_failure_iff {latest : PageRun}
    (isLatest : (runs.find? fun run => isRunOf lowering functionName run &&
      isRelevantRunForLanguage lowering language run) = some latest) :
    (∃ run, pickRunForFunctionAndLanguage lowering runs functionName language = some run ∧
      isRunFailure lowering run = true) ↔
      (∀ run ∈ runs, isRunOf lowering functionName run = true →
        isRelevantRunForLanguage lowering language run = true →
          isRunSuccess lowering run = false) ∧
      ∀ run, runs.find? (isRunOf lowering functionName) = some run →
        isRunFailure lowering run = true := by
  obtain ⟨first, isFirst⟩ : ∃ first, runs.find? (isRunOf lowering functionName) = some first := by
    have passes := List.find?_some isLatest
    rw [Bool.and_eq_true] at passes
    exact Option.isSome_iff_exists.mp
      (List.find?_isSome.mpr ⟨latest, List.mem_of_find?_eq_some isLatest, passes.1⟩)
  rw [pick_of_idle lowering idle, isFirst]
  cases searched : runs.find? fun run => isRunOf lowering functionName run &&
      (isRunSuccess lowering run && isRelevantRunForLanguage lowering language run) with
  | some success =>
      have passes := List.find?_some searched
      rw [Bool.and_eq_true, Bool.and_eq_true] at passes
      obtain ⟨isRun, succeeded, isRelevant⟩ := passes
      constructor
      · rintro ⟨run, isPicked, failed⟩
        obtain rfl := Option.some.inj isPicked
        rw [not_isRunFailure_of_isRunSuccess lowering succeeded] at failed
        cases failed
      · rintro ⟨noneSucceeded, -⟩
        have failed := noneSucceeded success (List.mem_of_find?_eq_some searched) isRun isRelevant
        rw [succeeded] at failed
        cases failed
  | none =>
      have noneSucceeded : ∀ run ∈ runs, isRunOf lowering functionName run = true →
          isRelevantRunForLanguage lowering language run = true →
            isRunSuccess lowering run = false := by
        intro run member isRun isRelevant
        have fails := List.find?_eq_none.mp searched run member
        simpa [isRun, isRelevant] using fails
      constructor
      · rintro ⟨run, isPicked, failed⟩
        obtain rfl := Option.some.inj isPicked
        apply And.intro noneSucceeded
        intro other isOther
        rwa [← Option.some.inj isOther]
      · rintro ⟨-, failed⟩
        exact ⟨first, rfl, failed first rfl⟩

end Idle

theorem toLowerCase_success : lowering.toLowerCase "success" = "success" := by
  rw [lowering.ascii "success" rfl]
  rfl

/-- A status or a conclusion that reads `success` does so in lower case, too. -/
theorem normalizeStatus_of_isWord {run : PageRun}
    (isSuccess : isWord ((run "conclusion").or (run "Conclusion")) "success" = true ∨
      isWord ((run "status").or (run "Status")) "success" = true) :
    (normalizeStatus lowering run).2 = "success" ∨
      (normalizeStatus lowering run).1 = "success" := by
  have reads : ∀ first second : PageValue, isWord (first.or second) "success" = true →
      lowering.toLowerCase (first.or (second.or (.string ""))).text = "success" := by
    intro first second isSuccess
    have isText : first.or second = .string "success" := of_decide_eq_true isSuccess
    rw [PageValue.or_or_of_truthy (by rw [isText]; rfl), isText]
    exact toLowerCase_success lowering
  rcases isSuccess with isSuccess | isSuccess
  · exact .inl (reads _ _ isSuccess)
  · exact .inr (reads _ _ isSuccess)

theorem statusLabel_of_isRunFailure {run : PageRun} (failed : isRunFailure lowering run = true) :
    statusLabel lowering run false = s!"Failed: {nameOrBuild run}" := by
  unfold isRunFailure at failed
  unfold statusLabel
  generalize normalizeStatus lowering run = ended at failed ⊢
  obtain ⟨status, conclusion⟩ := ended
  obtain ⟨noSuccess, isFailure⟩ := of_decide_eq_true failed
  dsimp only
  rw [if_neg Bool.false_ne_true, if_neg noSuccess, if_pos isFailure]

theorem statusClass_of_isRunFailure {run : PageRun} (failed : isRunFailure lowering run = true) :
    statusClass ((run "status").or (run "Status")) ((run "conclusion").or (run "Conclusion"))
      false ≠ successClass := by
  intro isGreen
  have noSuccess := (of_decide_eq_true failed).1
  unfold statusClass at isGreen
  rw [if_neg Bool.false_ne_true] at isGreen
  split at isGreen
  · next isSuccess =>
      rw [Bool.or_eq_true] at isSuccess
      exact noSuccess (normalizeStatus_of_isWord lowering isSuccess)
  · split at isGreen
    · exact absurd isGreen (by decide)
    · exact absurd isGreen (by decide)

/-- The badge of a run that is not in progress. -/
theorem updateBuildButtons_of_ended {runs : List PageRun} {card : Card} {run : PageRun}
    (isPicked : pickRunForFunctionAndLanguage lowering runs card.functionName card.language =
      some run) (ended : isInProgress lowering run = false) :
    (updateBuildButtons lowering runs card).className =
        badgeClass (statusClass ((run "status").or (run "Status"))
          ((run "conclusion").or (run "Conclusion")) false) ∧
      (updateBuildButtons lowering runs card).label = statusLabel lowering run false := by
  unfold updateBuildButtons
  simp only [isPicked, property, Option.elim_some, ended, Bool.false_and, Bool.false_eq_true,
    if_false, and_self]

theorem not_showsSuccess {runs : List PageRun} {card : Card} {run : PageRun}
    (isPicked : pickRunForFunctionAndLanguage lowering runs card.functionName card.language =
      some run) (ended : isInProgress lowering run = false)
    (failed : isRunFailure lowering run = true) :
    ¬ ShowsSuccess (updateBuildButtons lowering runs card) := by
  obtain ⟨isClass, isLabel⟩ := updateBuildButtons_of_ended lowering isPicked ended
  intro shown
  rw [ShowsSuccess, isClass, isLabel, badgeClass_inj] at shown
  rcases shown with isGreen | ⟨name, isSuccess⟩
  · exact statusClass_of_isRunFailure lowering failed isGreen
  · rw [statusLabel_of_isRunFailure lowering failed] at isSuccess
    change "Failed: " ++ nameOrBuild run = "Success: " ++ name at isSuccess
    have sameFirst : some 'F' = some 'S' :=
      calc
        some 'F' = ("Failed: ".toList ++ (nameOrBuild run).toList).head? := rfl
        _ = ("Success: ".toList ++ name.toList).head? := by
          rw [← String.toList_append, isSuccess, String.toList_append]
        _ = some 'S' := rfl
    exact absurd sameFirst (by decide)

/-- The badge shows a failure where no relevant run of the function succeeded and
the newest run of the function failed. -/
theorem showsFailure_iff {runs : List PageRun} {card : Card} {latest : PageRun}
    (latestFailed : LatestFailed lowering runs card latest) :
    ShowsFailure lowering runs card ↔
      (∀ run ∈ runs, isRunOf lowering card.functionName run = true →
        isRelevantRunForLanguage lowering card.language run = true →
          isRunSuccess lowering run = false) ∧
      ∀ run, runs.find? (isRunOf lowering card.functionName) = some run →
        isRunFailure lowering run = true := by
  have picks := picks_failure_iff lowering latestFailed.idle latestFailed.isLatest
  constructor
  · rintro ⟨isPicked, -⟩
    exact picks.mp isPicked
  · intro allFail
    obtain ⟨run, isPicked, failed⟩ := picks.mpr allFail
    apply And.intro ⟨run, isPicked, failed⟩
    have member := isPicked
    rw [pickRunForFunctionAndLanguage_eq] at member
    have isRun := List.mem_filter.mp (mem_of_search member)
    exact not_showsSuccess lowering isPicked (latestFailed.idle run isRun.1 isRun.2) failed

end Page

/-! ### Runs of one function -/

def asciiLowering : TextLowering where
  toLowerCase := fun text => String.ofList (text.toList.map Char.toLower)
  ascii := fun _ _ => rfl

/-- A task of the workflow for a commit of `total`, as the portal sends it. -/
def totalTask (name status : String) : PageRun :=
  .ofFields [("Name", .string name), ("DisplayTitle", .string "update functions/lua/total.lua"),
    ("Status", .string status), ("Conclusion", .string ""), ("WorkflowName", .string ""),
    ("FunctionName", .string "total"), ("CurrentJob", .string ""), ("CurrentStep", .string "")]

def totalCard : Card :=
  ⟨"total", "lua", false⟩

theorem totalTask_latestFailed (older : List PageRun)
    (idle : ∀ run ∈ older, isInProgress asciiLowering run = false) :
    LatestFailed asciiLowering (totalTask "hook-lua" "failure" :: older) totalCard
      (totalTask "hook-lua" "failure") where
  idle := by
    intro run member _
    rcases List.mem_cons.mp member with rfl | member
    · decide
    · exact idle run member
  isLatest := by
    rw [List.find?_cons_of_pos]
    decide
  failed := by decide

theorem firstFailure_shown :
    ShowsFailure asciiLowering [totalTask "hook-lua" "failure"] totalCard := by
  have latestFailed := totalTask_latestFailed [] (by simp)
  apply (showsFailure_iff asciiLowering latestFailed).mpr
  constructor
  · intro run member _ _
    obtain rfl := List.mem_singleton.mp member
    decide
  · intro run isFirst
    obtain rfl := List.mem_singleton.mp (List.mem_of_find?_eq_some isFirst)
    decide

/-- A failure is hidden by a success before it. -/
theorem laterFailure_not_shown :
    ¬ ∀ (runs : List PageRun) (card : Card) (latest : PageRun),
      LatestFailed asciiLowering runs card latest → ShowsFailure asciiLowering runs card := by
  intro always
  have idle : ∀ run ∈ [totalTask "hook-lua" "success"], isInProgress asciiLowering run = false := by
    intro run member
    obtain rfl := List.mem_singleton.mp member
    decide
  have latestFailed := totalTask_latestFailed _ idle
  obtain ⟨isPicked, -⟩ := always _ _ _ latestFailed
  have noneSucceeded :=
    ((picks_failure_iff asciiLowering latestFailed.idle latestFailed.isLatest).mp isPicked).1
  have notSucceeded := noneSucceeded (totalTask "hook-lua" "success") (by simp) (by decide)
    (by decide)
  exact absurd notSucceeded (by decide)

end EndpointPage

end Portal

end Litefunctions
