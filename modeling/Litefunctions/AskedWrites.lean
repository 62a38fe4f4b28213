import Litefunctions.CreatedPaths
import Litefunctions.ProgramExpansions
import Litefunctions.PublishedFiles
import Litefunctions.RememberedRows
import Litefunctions.VendorClients

/-!
# Writes that requests ask for

Three handlers change the file of a function, in the repository of the project of
the cookie, and two others write the workflow file.  What they write comes from
their request and from the row that its path names.  A handler that answers with
success has written the file, committed it and pushed, in this order.
-/

namespace Litefunctions

namespace Portal

open Program

/-! ### The workflow file -/

/-- `GitHubWorkflow` or `GiteaWorkflow`. -/
structure WorkflowFile where
  vendor : VendorType
  text : Bytes

def WorkflowFile.path (workflow : WorkflowFile) : String :=
  match workflow.vendor with
  | .github => ".github/workflows/ci.yaml"
  | .gitea => ".gitea/workflows/ci.yaml"

/-- `WriteFile`; the handlers do not look at the text of its error. -/
def writeFile (project path : String) (body : Bytes) : PortalProgram (Except String String) := do
  if ← onRepo project .new then
    if ← onRepo project (.create path body) then
      match ← onRepo project (.commit path) with
      | .error err => if err.isEmptyCommit then publish else return .error ("commit error " ++ err.text)
      | .ok _ => publish
    else
      return .error "error getting file handle"
  else
    return .error "error in repo new"
where
  publish : PortalProgram (Except String String) := do
    if ← onRepo project .push then
      return .ok ""
    else
      return .error "push error"

/-- The calls behind a call of a handler: `AddWorkflow` works on the clone. -/
def WorkflowFile.calls (workflow : WorkflowFile) :
    (request : PortalCall) → PortalProgram request.Response
  | .vcs repository .addWorkflow => writeFile repository workflow.path workflow.text
  | request => perform request

/-! ### What requests ask for -/

/-- An answer has the project of the cookie. -/
def Selects (history : PortalHistory) (cookies : Cookies) (project : String) : Prop :=
  ∃ hex bytes row, cookies.project = some hex ∧ HexText.decode hex = some bytes ∧
    (⟨.query (.project (.getProjectByID (.copy bytes))), Except.ok row⟩ :
      Answered PortalCall PortalCall.Response) ∈ history ∧ row.name = project

/-- An answer has the function with the id of the path. -/
def Reads (history : PortalHistory) (fnID : String) (row : FunctionRow) : Prop :=
  ∃ bytes, HexText.decode fnID = some bytes ∧
    (⟨.query (.function (.getFunctionByID (some (.copy bytes)))), Except.ok row⟩ :
      Answered PortalCall PortalCall.Response) ∈ history

variable {Response : Type}

/-- The request asks for this content of the file; none where the file is to be
removed. -/
inductive Asks (settings : Settings) (workflow : WorkflowFile) (history : PortalHistory) :
    Request Response → (project path : String) → Option Bytes → Prop
  | create {cookies : Cookies} {project : String} (req : FunctionHandlers.CreateFunctionRequest)
      (selects : Selects history cookies project) :
      Asks settings workflow history ⟨cookies, .project (.createFunction (some req))⟩ project req.file
        (some req.content)
  | save {cookies : Cookies} {project fnID : String} {row : FunctionRow} (content : Bytes)
      (selects : Selects history cookies project) (reads : Reads history fnID row) :
      Asks settings workflow history ⟨cookies, .project (.updateFunction fnID (.plain (some content)))⟩
        project row.path (some content)
  | saveCode {cookies : Cookies} {project fnID : String} {row : FunctionRow}
      (req : FunctionHandlers.UpdateFunctionRequest) (hasCode : req.code ≠ "")
      (selects : Selects history cookies project) (reads : Reads history fnID row) :
      Asks settings workflow history ⟨cookies, .project (.updateFunction fnID (.json (some req)))⟩
        project row.path (some req.code.toUTF8.data.toList)
  | delete {cookies : Cookies} {project fnID : String} {row : FunctionRow}
      (selects : Selects history cookies project) (reads : Reads history fnID row) :
      Asks settings workflow history ⟨cookies, .project (.deleteFunction fnID)⟩ project row.path none
  | sync {cookies : Cookies} {project : String} (selects : Selects history cookies project) :
      Asks settings workflow history ⟨cookies, .project .syncProject⟩ project workflow.path
        (some workflow.text)
  | start {cookies : Cookies} {name project : String}
      (made : project = name.map settings.toLower ∨
        (⟨.vcs (name.map settings.toLower) .createRepo, Except.ok project⟩ :
          Answered PortalCall PortalCall.Response) ∈ history) :
      Asks settings workflow history ⟨cookies, .user (.createProject (some name))⟩ project workflow.path
        (some workflow.text)

/-- The call changes a file as its request asks. -/
def AsksFor (settings : Settings) (workflow : WorkflowFile) (request : Request Response)
    (history : PortalHistory) : PortalCall → Prop
  | .repo project (.create path content) =>
      Asks settings workflow history request project path (some content)
  | .repo project (.remove path) => Asks settings workflow history request project path none
  | .vcs project .addWorkflow =>
      Asks settings workflow history request project workflow.path (some workflow.text)
  | .vcs project .createRepo =>
      ∃ name, request.route = .user (.createProject (some name)) ∧ project = name.map settings.toLower
  | _ => True

/-- The content that a request gives to the file of a function, and the status of
its answer when it has. -/
def Request.change : Request Response → Option (Option Bytes × Nat)
  | ⟨_, .project (.createFunction (some req))⟩ => some (some req.content, 201)
  | ⟨_, .project (.updateFunction _ (.plain (some content)))⟩ => some (some content, 200)
  | ⟨_, .project (.updateFunction _ (.json (some req)))⟩ =>
      if req.code = "" then none else some (some req.code.toUTF8.data.toList, 200)
  | ⟨_, .project (.deleteFunction _)⟩ => some (none, 200)
  | _ => none

/-- Nothing was wrong with a commit but that there was nothing to commit. -/
def Tolerated (committed : Except CommitError Unit) : Prop :=
  ∀ err, committed = .error err →
    err.isEmptyCommit = true ∨ containsText err.text "clean working tree" = true

/-- The file was changed, committed and pushed, in this order. -/
inductive Carried (history : PortalHistory) (project path : String) (content : Option Bytes) : Prop
  | pushed {call : RepoCall} {response : call.Response} {committed : Except CommitError Unit}
      (isWrite : call.write response = some (path, content)) (isTolerated : Tolerated committed)
      (ordered : List.Sublist [⟨.repo project call, response⟩,
        ⟨.repo project (.commit path), committed⟩, ⟨.repo project .push, true⟩] history)

/-- An answer with this status says that the content was asked for and is pushed. -/
def Delivers (settings : Settings) (workflow : WorkflowFile) (request : Request Response)
    (content : Option Bytes) (status : Nat) (history : PortalHistory) (replies : List Reply) : Prop :=
  Answers status replies → ∃ project path, Asks settings workflow history request project path content ∧
    Carried history project path content

/-- A request that answers with success has made its change. -/
def Completes (settings : Settings) (workflow : WorkflowFile) (request : Request Response)
    (history : PortalHistory) (replies : List Reply) : Prop :=
  ∀ content status, request.change = some (content, status) →
    Delivers settings workflow request content status history replies

/-! ### Growing histories -/

/-- `AddWorkflow`, which is a program of its own. -/
def PortalCall.addsWorkflow : PortalCall → Bool
  | vcs _ .addWorkflow => true
  | _ => false

/-- The later history has what was answered before, but for the calls behind
which there is a program. -/
def Recalls (history later : PortalHistory) : Prop :=
  (history.filter fun answered => !answered.1.addsWorkflow).Sublist later

section Histories

variable {settings : Settings} {workflow : WorkflowFile} {request : Request Response}
variable {history later : PortalHistory} {cookies : Cookies} {project path fnID : String}
variable {row : FunctionRow} {content : Option Bytes}

theorem Recalls.of_growth (grows : history <+: later) : Recalls history later :=
  List.filter_sublist.trans grows.sublist

theorem Recalls.mem (recalls : Recalls history later) {answered : Answered PortalCall PortalCall.Response}
    (told : answered ∈ history) (isSingle : answered.1.addsWorkflow = false) : answered ∈ later :=
  recalls.subset (List.mem_filter.mpr ⟨told, by rw [isSingle]; rfl⟩)

theorem Selects.recall (selects : Selects history cookies project) (recalls : Recalls history later) :
    Selects later cookies project := by
  obtain ⟨hex, bytes, row, isCookie, decoded, told, isName⟩ := selects
  exact ⟨hex, bytes, row, isCookie, decoded, recalls.mem told rfl, isName⟩

theorem Reads.recall (reads : Reads history fnID row) (recalls : Recalls history later) :
    Reads later fnID row := by
  obtain ⟨bytes, decoded, told⟩ := reads
  exact ⟨bytes, decoded, recalls.mem told rfl⟩

theorem Asks.recall (asks : Asks settings workflow history request project path content)
    (recalls : Recalls history later) : Asks settings workflow later request project path content := by
  cases asks with
  | create req selects => exact .create req (selects.recall recalls)
  | save content selects reads => exact .save content (selects.recall recalls) (reads.recall recalls)
  | saveCode req hasCode selects reads =>
      exact .saveCode req hasCode (selects.recall recalls) (reads.recall recalls)
  | delete selects reads => exact .delete (selects.recall recalls) (reads.recall recalls)
  | sync selects => exact .sync (selects.recall recalls)
  | start made => exact .start (made.imp id fun told => recalls.mem told rfl)

theorem Recalls.sublist (recalls : Recalls history later) {part : PortalHistory}
    (ordered : part.Sublist history)
    (areSingle : ∀ answered ∈ part, answered.1.addsWorkflow = false) : part.Sublist later := by
  have kept : (part.filter fun answered => !answered.1.addsWorkflow) = part :=
    List.filter_eq_self.mpr fun answered member => by rw [areSingle answered member]; rfl
  rw [← kept]
  exact (ordered.filter _).trans recalls

theorem Carried.recall (carried : Carried history project path content) (recalls : Recalls history later) :
    Carried later project path content := by
  obtain ⟨isWrite, isTolerated, ordered⟩ := carried
  refine ⟨isWrite, isTolerated, recalls.sublist ordered ?_⟩
  simp [PortalCall.addsWorkflow]

variable (grows : history <+: later)
include grows

theorem Selects.mono (selects : Selects history cookies project) : Selects later cookies project :=
  selects.recall (.of_growth grows)

theorem Asks.mono (asks : Asks settings workflow history request project path content) :
    Asks settings workflow later request project path content :=
  asks.recall (.of_growth grows)

theorem Carried.mono (carried : Carried history project path content) :
    Carried later project path content :=
  carried.recall (.of_growth grows)

end Histories

/-! ### Calls of the handlers -/

section Asking

variable {settings : Settings} {workflow : WorkflowFile} {request : Request Response}
variable {history : PortalHistory} {project path : String} {content : Option Bytes}
variable {Result : Type}

variable (settings workflow request) in
/-- All changes of files by the program are asked for. -/
abbrev Asking (finished : PortalHistory → Result → Prop) (program : PortalProgram Result)
    (history : PortalHistory) : Prop :=
  program.Along (AsksFor settings workflow request) finished history

theorem asksFor_of_quiet {call : PortalCall} (quiet : call.writes = false) (history : PortalHistory) :
    AsksFor settings workflow request history call := by
  unfold AsksFor
  split
  · cases quiet
  · cases quiet
  · cases quiet
  · cases quiet
  · trivial

theorem asking_of_quiet {program : PortalProgram Result} (quiet : program.Makes (·.writes = false))
    (history : PortalHistory) :
    Asking settings workflow request (fun after _ => history <+: after) program history :=
  ((quiet.along history).extends).imp (fun before _ isQuiet => asksFor_of_quiet isQuiet before)
    fun _ _ grows => grows.1

theorem asking_of_calm {program : PortalProgram Result} (calm : program.Makes PortalCall.IsCalm)
    (history : PortalHistory) :
    Asking settings workflow request (fun after _ => history <+: after) program history :=
  asking_of_quiet (calm.imp fun _ isCalm => isCalm.quiet) history

theorem status_of_change {status : Nat} (change : request.change = some (content, status)) :
    status ≤ 201 := by
  unfold Request.change at change
  split at change
  · cases change
    exact le_rfl
  · cases change
    decide
  · split at change
    · cases change
    · cases change
      decide
  · cases change
    decide
  · cases change

/-- No answer with success is among the replies. -/
def Declines (replies : List Reply) : Prop :=
  ∀ status ≤ 201, ¬ Answers status replies

theorem declines_json {status : Nat} (isRefused : 201 < status) (body : Json) :
    Declines [.json status body] :=
  fun code isSmall => not_answers_other (by omega) body

theorem declines_panicked : Declines [.panicked] := by
  rintro status - ⟨body, member⟩
  cases List.mem_singleton.mp member

theorem completes_of_declines {replies : List Reply} (declines : Declines replies) :
    Completes settings workflow request history replies :=
  fun _ status change answers => absurd answers (declines status (status_of_change change))

theorem completes_of_refused {code : Nat} (isRefused : 201 < code) (body : Json) (history : PortalHistory) :
    Completes settings workflow request history [.json code body] :=
  completes_of_declines (declines_json isRefused body)

theorem completes_panicked (history : PortalHistory) :
    Completes settings workflow request history [.panicked] :=
  completes_of_declines declines_panicked

theorem completes_of_delivers {status : Nat} {replies : List Reply}
    (change : request.change = some (content, status))
    (delivers : Delivers settings workflow request content status history replies) :
    Completes settings workflow request history replies := by
  intro other code same
  obtain ⟨rfl, rfl⟩ := Prod.mk.inj (Option.some.inj (change.symm.trans same))
  exact delivers

theorem completes_of_unchanging (unchanging : request.change = none) (replies : List Reply) :
    Completes settings workflow request history replies := by
  intro content status change
  rw [unchanging] at change
  cases change

theorem mkdirs_quiet (project : String) (directories : List String) :
    (FunctionHandlers.mkdirs project directories).Makes (·.writes = false) := by
  induction directories with
  | nil => trivial
  | cons directory directories ih => exact ⟨rfl, fun _ => ih⟩

/-- The file is pushed, or the answer is an error. -/
inductive PushedOrNot (project path : String) (bytes : Bytes) :
    PortalHistory → Option (List Reply) → Prop
  | pushed {history : PortalHistory} (carried : Carried history project path (some bytes)) :
      PushedOrNot project path bytes history none
  | failed (history : PortalHistory) (text : String) :
      PushedOrNot project path bytes history (some [.error 500 text])

theorem commitAndPush_asking {bytes : Bytes} {tolerated : CommitError → Bool}
    (tolerates : ∀ err, tolerated err = true →
      err.isEmptyCommit = true ∨ containsText err.text "clean working tree" = true) :
    Asking settings workflow request (PushedOrNot project path bytes)
      (FunctionHandlers.commitAndPush project path tolerated)
      (history ++ [⟨.repo project (.create path bytes), true⟩]) := by
  unfold FunctionHandlers.commitAndPush
  extract_lets pushed
  have along : ∀ committed, Tolerated committed →
      Asking settings workflow request (PushedOrNot project path bytes) pushed
        (history ++ [⟨.repo project (.create path bytes), true⟩] ++
          [⟨.repo project (.commit path), committed⟩]) := by
    intro committed isTolerated
    apply And.intro trivial
    intro isPushed
    cases isPushed with
    | false => exact .failed _ _
    | true =>
        have isWrite : RepoCall.write (.create path bytes) true = some (path, some bytes) := rfl
        refine .pushed (.pushed isWrite isTolerated ?_)
        rw [List.append_assoc, List.append_assoc]
        exact List.sublist_append_right _ _
  apply And.intro trivial
  intro committed
  cases committed with
  | error err =>
      change (if tolerated err = true then pushed else _).Along _ _ _
      split
      · next isTolerated =>
          refine along (.error err) ?_
          intro other same
          rw [← Except.error.inj same]
          exact tolerates err isTolerated
      · exact .failed _ _
  | ok _ => exact along (.ok ()) nofun

theorem saveFile_asking {bytes : Bytes}
    (asks : Asks settings workflow history request project path (some bytes)) :
    Asking settings workflow request (PushedOrNot project path bytes)
      (FunctionHandlers.saveFile project path bytes) history := by
  apply And.intro asks
  intro isCreated
  cases isCreated with
  | false => exact .failed _ _
  | true => exact commitAndPush_asking fun err => .inl

end Asking

/-! ### Handlers -/

section Handlers

open FunctionHandlers

variable {settings : Settings} {workflow : WorkflowFile} {history : PortalHistory}
variable {c : Context} {cookies : Cookies}

variable (Response settings workflow cookies) in
/-- The handler changes what the request to its route asks for. -/
abbrev Obeys (route : ProjectRoute) (handler : Replies) (history : PortalHistory) : Prop :=
  let request : Request Response := ⟨cookies, .project route⟩
  Asking settings workflow request (Completes settings workflow request) handler history

variable (history c cookies) in
/-- The project of the context is the one that was read. -/
def HasSelected : Prop :=
  ∀ project, c.project = some project → Selects history cookies project.projectName

theorem createFunction_asking (body : Option CreateFunctionRequest)
    (selects : HasSelected history c cookies) :
    Obeys Response settings workflow cookies (.createFunction body) (createFunction settings c body)
      history := by
  refine along_mustGetProject (completes_panicked _) fun project isProject => ?_
  cases body with
  | none => exact completes_of_unchanging rfl _
  | some req =>
      dsimp only
      split
      · exact completes_of_refused (by decide) _ _
      · apply And.intro trivial
        intro listed
        cases listed with
        | error err => exact completes_of_refused (by decide) _ _
        | ok fns =>
            show Along _ _ _ (if fns.any (·.name = req.name) = true then _ else _)
            split
            · exact completes_of_refused (by decide) _ _
            · refine along_bind.mpr ((asking_of_quiet (mkdirs_quiet _ _) _).imp (fun _ _ => id) ?_)
              intro made _ growsMade
              have asks : Asks settings workflow made
                  (⟨cookies, .project (.createFunction (some req))⟩ : Request Response)
                  project.projectName req.file (some req.content) :=
                .create req (((selects project isProject).mono (prefix_snoc _ _)).mono growsMade)
              apply And.intro asks
              intro isCreated
              cases isCreated with
              | false => exact completes_of_refused (by decide) _ _
              | true =>
                  show Along _ _ _ (commitAndPush _ _ _ >>= _)
                  refine along_bind.mpr ((commitAndPush_asking fun err => .inr).extends.imp
                    (fun _ _ => id) ?_)
                  rintro pushed failed ⟨grows, isPushed⟩
                  cases isPushed with
                  | failed => exact completes_of_refused (by decide) _ _
                  | pushed carried =>
                      apply And.intro trivial
                      intro stored
                      cases stored with
                      | error err => exact completes_of_refused (by decide) _ _
                      | ok fn =>
                          refine ⟨trivial, fun _ => ⟨trivial, fun _ => ?_⟩⟩
                          refine completes_of_delivers rfl fun _ => ⟨_, _,
                            asks.mono (((prefix_snoc _ _).trans grows).trans ?longer),
                            carried.mono ?longer⟩
                          exact ((prefix_snoc _ _).trans (prefix_snoc _ _)).trans (prefix_snoc _ _)

theorem updateFromJson_asking {project fnID : String} {row : FunctionRow} {req : UpdateFunctionRequest}
    (selects : Selects history cookies project) (reads : Reads history fnID row) :
    Obeys Response settings workflow cookies (.updateFunction fnID (.json (some req)))
      (updateFromJson project row.path req) history := by
  unfold updateFromJson
  extract_lets saveAndMove
  have later : ∀ fields after, history <+: after → Obeys Response settings workflow cookies
      (.updateFunction fnID (.json (some req))) (saveAndMove fields) after := by
    intro fields after grows
    simp only [saveAndMove]
    split
    · next noCode =>
        have unchanging : (⟨cookies, .project (.updateFunction fnID (.json (some req)))⟩ :
            Request Response).change = none := by
          simp [Request.change, noCode]
        show Along _ _ _ (if req.path = "" then _ else _ : Replies)
        split
        · exact completes_of_unchanging unchanging _
        · apply And.intro trivial
          intro moved
          cases moved <;> exact completes_of_unchanging unchanging _
    · next hasCode =>
        have change : (⟨cookies, .project (.updateFunction fnID (.json (some req)))⟩ :
            Request Response).change = some (some req.code.toUTF8.data.toList, 200) := by
          simp [Request.change, hasCode]
        have asks : Asks settings workflow after
            (⟨cookies, .project (.updateFunction fnID (.json (some req)))⟩ : Request Response) project
            row.path (some req.code.toUTF8.data.toList) :=
          .saveCode req hasCode (selects.mono grows) (reads.recall (.of_growth grows))
        refine along_bind.mpr ((saveFile_asking asks).extends.imp (fun _ _ => id) ?_)
        rintro saved failed ⟨growsSaved, isPushed⟩
        cases isPushed with
        | failed => exact completes_of_refused (by decide) _ _
        | pushed carried =>
            show Along _ _ _ (if req.path = "" then _ else _ : Replies)
            split
            · exact completes_of_delivers change fun _ => ⟨_, _, asks.mono growsSaved, carried⟩
            · apply And.intro trivial
              intro moved
              cases moved <;>
                exact completes_of_delivers change fun _ => ⟨_, _,
                  asks.mono (growsSaved.trans (prefix_snoc _ _)), carried.mono (prefix_snoc _ _)⟩
  cases req.isAsync with
  | none => exact later _ _ List.prefix_rfl
  | some isAsync =>
      apply And.intro trivial
      intro updated
      cases updated <;> exact later _ _ (prefix_snoc _ _)

theorem updateFunction_asking (fnID : String) (body : UpdateBody)
    (selects : HasSelected history c cookies) :
    Obeys Response settings workflow cookies (.updateFunction fnID body) (updateFunction c fnID body)
      history := by
  unfold updateFunction
  cases decoded : HexText.decode fnID with
  | none => exact completes_of_refused (by decide) _ _
  | some bytes =>
      dsimp only
      split
      · exact completes_of_refused (by decide) _ _
      · apply And.intro trivial
        intro found
        cases found with
        | error err => exact completes_of_refused (by decide) _ _
        | ok f =>
            refine along_mustGetProject (completes_panicked _) fun project isProject => ?_
            have selected := (selects project isProject).mono (prefix_snoc history
              ⟨.query (.function (.getFunctionByID (some (.copy bytes)))), .ok f⟩)
            have reads : Reads (history ++ [⟨.query (.function (.getFunctionByID (some (.copy bytes)))),
                .ok f⟩]) fnID f := ⟨bytes, decoded, by simp⟩
            rcases body with (_ | content) | (_ | req)
            · exact completes_of_refused (by decide) _ _
            · have asks : Asks settings workflow _
                  (⟨cookies, .project (.updateFunction fnID (.plain (some content)))⟩ : Request Response)
                  project.projectName f.path (some content) := .save content selected reads
              refine along_bind.mpr ((saveFile_asking asks).extends.imp (fun _ _ => id) ?_)
              rintro after failed ⟨grows, isPushed⟩
              cases isPushed with
              | failed => exact completes_of_refused (by decide) _ _
              | pushed carried =>
                  exact completes_of_delivers rfl fun _ => ⟨_, _, asks.mono grows, carried⟩
            · exact completes_of_refused (by decide) _ _
            · exact updateFromJson_asking selected reads

theorem deleteFunction_asking (fnID : String) (selects : HasSelected history c cookies) :
    Obeys Response settings workflow cookies (.deleteFunction fnID) (deleteFunction c fnID) history := by
  unfold deleteFunction
  cases decoded : HexText.decode fnID with
  | none => exact completes_of_refused (by decide) _ _
  | some bytes =>
      apply And.intro trivial
      intro found
      cases found with
      | error err => exact completes_of_refused (by decide) _ _
      | ok f =>
          have reads : Reads (history ++ [⟨.query (.function (.getFunctionByID (some (.copy bytes)))), .ok f⟩])
              fnID f := ⟨bytes, decoded, by simp⟩
          have restores : ∀ after text, Obeys Response settings workflow cookies (.deleteFunction fnID)
              (restoreFunction f text) after := by
            intro after text
            apply And.intro trivial
            intro restored
            exact completes_of_refused (by decide) _ _
          apply And.intro trivial
          intro deleted
          cases deleted with
          | error err => exact completes_of_refused (by decide) _ _
          | ok _ =>
              refine along_mustGetProject (completes_panicked _) fun project isProject => ?_
              have asks : Asks settings workflow _
                  (⟨cookies, .project (.deleteFunction fnID)⟩ : Request Response) project.projectName
                  f.path none := .delete ((selects project isProject).mono (prefix_snoc _ _)) reads
              apply And.intro (asks.mono (prefix_snoc _ _))
              intro isRemoved
              cases isRemoved with
              | false => exact restores _ _
              | true =>
                  apply And.intro trivial
                  intro committed
                  cases committed with
                  | error err => exact restores _ _
                  | ok _ =>
                      apply And.intro trivial
                      intro isPushed
                      cases isPushed with
                      | false => exact restores _ _
                      | true =>
                          have isWrite : RepoCall.write (.remove f.path) true = some (f.path, none) := rfl
                          have isTolerated : Tolerated (.ok ()) := nofun
                          refine completes_of_delivers rfl fun _ =>
                            ⟨_, _, asks.mono ?_, .pushed isWrite isTolerated ?_⟩
                          · exact (((prefix_snoc _ _).trans (prefix_snoc _ _)).trans
                              (prefix_snoc _ _)).trans (prefix_snoc _ _)
                          · rw [List.append_assoc, List.append_assoc]
                            exact List.sublist_append_right _ _

/-! ### Synchronisation and projects -/

theorem ensureEndpoint_quiet (s : SyncContext) (fnID : Uuid) (fnName : String) :
    (ensureEndpoint s fnID fnName).Makes (·.writes = false) := by
  unfold ensureEndpoint
  split
  · trivial
  · exact ⟨rfl, fun _ => trivial⟩

theorem syncFile_quiet (settings : Settings) (s : SyncContext) (path : String) :
    (syncFile settings s path).Makes (·.writes = false) := by
  unfold syncFile
  cases extLang (ext path) with
  | none => trivial
  | some lang =>
      dsimp only
      cases s.existingPath path with
      | some id => exact ensureEndpoint_quiet s id _
      | none =>
          apply And.intro rfl
          intro created
          cases created with
          | error err => trivial
          | ok fn => exact (ensureEndpoint_quiet s fn.id _).bind fun _ => ⟨rfl, fun _ => trivial⟩

theorem syncFiles_quiet (settings : Settings) (s : SyncContext) (paths : List String) :
    (syncFiles settings s paths).Makes (·.writes = false) := by
  induction paths with
  | nil => trivial
  | cons path paths ih => exact (syncFile_quiet settings s path).bind fun _ => ih

theorem syncRepoFunctionsToDb_quiet (settings : Settings) (projectUUID : Uuid) (projectName : String)
    (userID : Bytes) :
    (syncRepoFunctionsToDb settings projectUUID projectName userID).Makes (·.writes = false) := by
  apply And.intro rfl
  intro isNew
  cases isNew with
  | false => trivial
  | true =>
      apply And.intro rfl
      intro listed
      cases listed with
      | error err => trivial
      | ok existingFns =>
          apply And.intro rfl
          intro joined
          cases joined with
          | error err => trivial
          | ok existingEps =>
              exact ⟨rfl, fun files => (syncFiles_quiet settings _ files).bind fun _ => trivial⟩

theorem syncProject_asking (selects : HasSelected history c cookies) :
    Obeys Response settings workflow cookies .syncProject (ProjectHandlers.syncProject settings c)
      history := by
  refine along_mustGetProject (completes_panicked _) fun project isProject => ?_
  refine along_bind.mpr ((asking_of_quiet (syncRepoFunctionsToDb_quiet settings project.projectUUID
    project.projectName c.userID) history).imp (fun _ _ => id) ?_)
  intro after isSynced grows
  cases isSynced with
  | false => exact completes_of_unchanging rfl _
  | true =>
      apply And.intro trivial
      intro client
      cases client with
      | error text => exact completes_of_unchanging rfl _
      | ok _ =>
          apply And.intro (.sync ((selects project isProject).mono (grows.trans (prefix_snoc _ _))))
          intro added
          cases added <;> exact completes_of_unchanging rfl _

private theorem addWorkflow_asking {name repoName : String} (project : Project)
    (asks : Asks settings workflow history
      (⟨cookies, .user (.createProject (some name))⟩ : Request Response) repoName workflow.path
        (some workflow.text)) :
    Asking settings workflow (⟨cookies, .user (.createProject (some name))⟩ : Request Response)
      (fun _ _ => True) (ProjectHandlers.createProjectInTx.addWorkflow project repoName) history := by
  apply And.intro asks
  intro added
  cases added <;> trivial

private theorem addWebhook_asking {name repoName : String} (project : Project)
    (asks : Asks settings workflow history
      (⟨cookies, .user (.createProject (some name))⟩ : Request Response) repoName workflow.path
        (some workflow.text)) :
    Asking settings workflow (⟨cookies, .user (.createProject (some name))⟩ : Request Response)
      (fun _ _ => True) (ProjectHandlers.createProjectInTx.addWebhook settings project repoName)
      history := by
  apply And.intro trivial
  intro added
  have goesOn := addWorkflow_asking project (asks.mono (prefix_snoc history ⟨_, added⟩))
  cases added with
  | ok _ => exact goesOn
  | error text =>
      show Along _ _ _ (if ProjectHandlers.alreadyExists text = true then _ else _)
      split
      · exact goesOn
      · trivial

theorem createProjectInTx_asking (name : String) :
    Asking settings workflow (⟨cookies, .user (.createProject (some name))⟩ : Request Response)
      (fun _ _ => True) (ProjectHandlers.createProjectInTx settings c (name.map settings.toLower))
      history := by
  apply And.intro trivial
  intro created
  cases created with
  | error err => trivial
  | ok project =>
      apply And.intro trivial
      intro owned
      cases owned with
      | error err => trivial
      | ok _ =>
          apply And.intro ⟨name, rfl, rfl⟩
          intro repo
          cases repo with
          | ok repoName => exact addWebhook_asking project (.start (.inr (by simp)))
          | error text =>
              show Along _ _ _ (if ProjectHandlers.alreadyExists text = true then _ else _)
              split
              · exact addWebhook_asking project (.start (.inl rfl))
              · trivial

theorem createProject_asking (body : Option String) :
    Asking settings workflow (⟨cookies, .user (.createProject body)⟩ : Request Response)
      (fun _ _ => True) (ProjectHandlers.createProject settings c body) history := by
  cases body with
  | none => trivial
  | some name =>
      apply And.intro trivial
      intro client
      cases client with
      | error text => trivial
      | ok _ =>
          refine along_inTransaction (fun _ => ⟨trivial, trivial, trivial⟩)
            (fun _ _ => (createProjectInTx_asking name).imp (fun _ _ => id) fun _ _ _ _ _ => True.intro)
            (fun _ _ _ _ => id) fun project after _ => ?_
          exact along_bind.mpr ((asking_of_quiet (syncRepoFunctionsToDb_quiet settings _ _ _) _).imp
            (fun _ _ => id) fun _ _ _ => trivial)

theorem inTransaction_quiet {Value : Type} {refused failed : Reply}
    {work : PortalProgram (Except (List Reply) Value)} {next : Value → Replies}
    (works : work.Makes (·.writes = false)) (rest : ∀ value, (next value).Makes (·.writes = false)) :
    (ProjectHandlers.inTransaction refused failed work next).Makes (·.writes = false) := by
  apply And.intro rfl
  intro begun
  cases begun with
  | false => trivial
  | true =>
      apply works.bind
      intro result
      cases result with
      | error replies => exact ⟨rfl, fun _ => trivial⟩
      | ok value =>
          apply And.intro rfl
          intro committed
          cases committed with
          | false => trivial
          | true => exact rest value

theorem createProjectInvite_quiet (c : Context) :
    (ProjectHandlers.createProjectInvite c).Makes (·.writes = false) := by
  refine mustGetProject_makes c fun project _ => inTransaction_quiet ?_ fun _ => trivial
  apply And.intro rfl
  intro role
  cases role with
  | error err => trivial
  | ok role =>
      show Makes _ (if role ≠ "owner" then _ else _)
      split
      · trivial
      · refine ⟨rfl, fun draws => ⟨rfl, fun issued => ⟨rfl, fun created => ?_⟩⟩⟩
        cases created <;> trivial

theorem joinProjectByInvite_quiet (c : Context) (code : Option String) :
    (ProjectHandlers.joinProjectByInvite c code).Makes (·.writes = false) := by
  unfold ProjectHandlers.joinProjectByInvite
  split
  · trivial
  · refine inTransaction_quiet ?_ fun _ => trivial
    apply And.intro rfl
    intro found
    cases found with
    | error err => trivial
    | ok invite =>
        show Makes _ (if invite.createdBy = c.userID then _ else _)
        split
        · trivial
        · apply And.intro rfl
          intro added
          cases added with
          | error err => trivial
          | ok _ =>
              apply And.intro rfl
              intro consumed
              cases consumed <;> trivial

/-! ### Requests -/

theorem handle_asking (route : ProjectRoute) (selects : HasSelected history c cookies) :
    Obeys Response settings workflow cookies route (route.handle settings cookies c) history := by
  cases isCalm : route.isCalm with
  | true =>
      refine (asking_of_calm (route.handle_calm isCalm settings cookies c) history).imp
        (fun _ _ => id) fun _ _ _ => completes_of_unchanging ?_ _
      cases route <;> first | rfl | cases isCalm
  | false =>
      cases route with
      | syncProject => exact syncProject_asking selects
      | createProjectInvite =>
          exact (asking_of_quiet (createProjectInvite_quiet c) history).imp (fun _ _ => id)
            fun _ _ _ => completes_of_unchanging rfl _
      | createFunction body => exact createFunction_asking body selects
      | updateFunction fnID body => exact updateFunction_asking fnID body selects
      | deleteFunction fnID => exact deleteFunction_asking fnID selects
      | _ => cases isCalm

theorem userRoute_asking (route : UserRoute) :
    Asking settings workflow (⟨cookies, .user route⟩ : Request Response) (fun _ _ => True)
      (route.handle settings cookies c) history := by
  cases route with
  | dashboard =>
      exact (asking_of_calm (dashboard_calm cookies c) history).imp (fun _ _ => id) fun _ _ _ => trivial
  | createProject body => exact createProject_asking body
  | joinProjectByInvite code =>
      exact (asking_of_quiet (joinProjectByInvite_quiet c code) history).imp (fun _ _ => id)
        fun _ _ _ => trivial

/-- Behind the replies of a middleware that declines, a handler completes its
request as without them. -/
theorem completes_append {request : Request Response} {replies more : List Reply}
    (declines : Declines replies) (completes : Completes settings workflow request history more) :
    Completes settings workflow request history (replies ++ more) := by
  rintro content status change ⟨body, member⟩
  rcases List.mem_append.mp member with first | later
  · exact absurd ⟨body, first⟩ (declines status (status_of_change change))
  · exact completes content status change ⟨body, later⟩

theorem authMiddleware_asking {request : Request Response} (path : String) :
    Asking settings workflow request
      (fun _ result => match result with
        | .error replies => Declines replies
        | .ok c => c.project = none)
      (authMiddleware cookies path) history := by
  unfold authMiddleware
  have redirected : Declines [.setCookie "lws_session" "" (-1), .redirect ("/?redirect=" ++ path)] := by
    rintro status - ⟨body, member⟩
    simp at member
  cases cookies.session with
  | none =>
      rintro status - ⟨body, member⟩
      simp at member
  | some sessionID =>
      apply And.intro trivial
      intro session
      cases session with
      | error err => exact redirected
      | ok session =>
          apply And.intro trivial
          intro user
          cases user with
          | error err => exact redirected
          | ok user => rfl

theorem projectMiddleware_asking {request : Request Response} :
    Asking settings workflow request
      (fun after result => match result with
        | .error replies => Declines replies
        | .ok project => Selects after cookies project.projectName)
      (projectMiddleware cookies) history := by
  unfold projectMiddleware
  cases isCookie : cookies.project with
  | none => exact declines_json (by decide) _
  | some projectIDHex =>
      dsimp only
      cases decoded : HexText.decode projectIDHex with
      | none => exact declines_json (by decide) _
      | some projectIDBytes =>
          dsimp only
          split
          · exact declines_json (by decide) _
          · apply And.intro trivial
            intro found
            cases found with
            | error err => exact declines_json (by decide) _
            | ok proj =>
                apply And.intro trivial
                intro isNew
                cases isNew with
                | false => exact declines_json (by decide) _
                | true => exact ⟨projectIDHex, projectIDBytes, proj, isCookie, decoded, by simp, rfl⟩

/-- Every change of a file is asked for by the request, and a request that
answers with success has made its change. -/
theorem serve_asking (authn : Passkeys.WebAuthn Response) (request : Request Response) :
    Asking settings workflow request (Completes settings workflow request)
      (serve settings authn request) [] := by
  obtain ⟨cookies, route⟩ := request
  cases route with
  | passkey route =>
      refine (asking_of_quiet ((Passkeys.handle_fitting settings authn cookies route).imp
        fun _ fitting => fitting.quiet) []).imp (fun _ _ => id) fun _ _ _ => ?_
      exact completes_of_unchanging rfl _
  | user route =>
      have unchanging : (⟨cookies, .user route⟩ : Request Response).change = none := rfl
      refine along_bind.mpr ((authMiddleware_asking route.path).imp (fun _ _ => id) ?_)
      intro after result _
      cases result with
      | error replies => exact completes_of_unchanging unchanging _
      | ok c =>
          exact (userRoute_asking route).imp (fun _ _ => id) fun _ _ _ =>
            completes_of_unchanging unchanging _
  | project route =>
      refine along_bind.mpr ((authMiddleware_asking route.path).imp (fun _ _ => id) ?_)
      intro after result known
      cases result with
      | error replies => exact completes_of_declines known
      | ok c =>
          refine along_bind.mpr (projectMiddleware_asking.imp (fun _ _ => id) ?_)
          intro later result selected
          cases result with
          | error replies =>
              -- the handlers go on without a project
              refine along_bind.mpr ((handle_asking route ?_).imp (fun _ _ => id) fun _ _ completes =>
                completes_append selected completes)
              rw [HasSelected, known]
              exact nofun
          | ok project =>
              refine handle_asking route fun chosen isChosen => ?_
              obtain rfl := Option.some.inj isChosen
              exact selected

end Handlers

end Portal

end Litefunctions
