import Litefunctions.CoherentRequests

/-!
# What a request remembers of rows

While a request is served other requests change the database, so a handler can
only go by what it was told.  The statements of the portal fit what their
request has been told before: the name of an endpoint is made of a name that
its project was read with and of a name that its function was read or stored
with, who becomes a member has created the project or was told of an invite of
somebody else, and the operator is asked for the objects of stored functions.
What was told may be over when the statement comes.
-/

namespace Litefunctions

namespace Portal

open Program

abbrev PortalHistory := List (Answered PortalCall PortalCall.Response)

/-- An answer names the project. -/
inductive TellsProject (history : PortalHistory) (projectID : Uuid) (name : String) : Prop
  | read {project : Project} (isName : project.name = name)
      (told : ⟨.query (.project (.getProjectByID projectID)), Except.ok project⟩ ∈ history)
  | created {project : Project} {createdBy : Bytes} (isID : project.id = projectID)
      (told : ⟨.query (.project (.createProject name createdBy)), Except.ok project⟩ ∈ history)

/-- An answer names the function, or names its file. -/
inductive TellsFunction (history : PortalHistory) (projectID functionID : Uuid) (name : String) : Prop
  | listed {rows : List FunctionRow} {row : FunctionRow} (member : row ∈ rows)
      (isID : row.id = functionID) (isName : name = FunctionHandlers.nameOf row.path)
      (told : ⟨.query (.function (.listFunctionsForProject projectID)), Except.ok rows⟩ ∈ history)
  | created {row : FunctionRow} {language path : String} {isAsync : Bool} {createdBy : Bytes}
      (isID : row.id = functionID)
      (told : ⟨.query (.function (.createFunction projectID name language path isAsync createdBy)),
        Except.ok row⟩ ∈ history)

/-- The language is that of the path, or an answer has a function with both. -/
def TellsLanguage (history : PortalHistory) (language path : String) : Prop :=
  FunctionHandlers.extLang (FunctionHandlers.ext path) = some language ∨
    ∃ id row, (⟨.query (.function (.getFunctionByID id)), Except.ok row⟩ :
      Answered PortalCall PortalCall.Response) ∈ history ∧ row.path = path ∧ row.language = language

/-- An answer has a session of the user. -/
def TellsUser (history : PortalHistory) (userID : Bytes) : Prop :=
  ∃ sessionID row, (⟨.query (.auth (.getUserSession sessionID)), Except.ok row⟩ :
    Answered PortalCall PortalCall.Response) ∈ history ∧ row.userID = userID

/-- An answer has the project that the user has created. -/
def TellsCreation (history : PortalHistory) (userID : Bytes) (projectID : Uuid) : Prop :=
  ∃ name project, (⟨.query (.project (.createProject name userID)), Except.ok project⟩ :
    Answered PortalCall PortalCall.Response) ∈ history ∧ project.id = projectID

/-- An answer has an invite to the project of another user. -/
def TellsInvite (history : PortalHistory) (userID : Bytes) (projectID : Uuid) : Prop :=
  ∃ code invite, (⟨.query (.access (.getValidInviteByCode code)), Except.ok invite⟩ :
    Answered PortalCall PortalCall.Response) ∈ history ∧ invite.projectID = projectID ∧
      invite.createdBy ≠ userID

/-- An answer has the user as owner of the project. -/
def TellsOwner (history : PortalHistory) (userID : Bytes) (projectID : Uuid) : Prop :=
  (⟨.query (.access (.getUserProjectRole userID projectID)), Except.ok "owner"⟩ :
    Answered PortalCall PortalCall.Response) ∈ history

/-- The answers have the project and the function that the object is asked for. -/
def TellsRegistration (history : PortalHistory) (req : Operator.CreateFunctionRequest) : Prop :=
  req.namespace_ = "default" ∧ ∃ projectID path createdBy row,
    TellsProject history projectID req.project ∧
      (⟨.query (.function (.createFunction projectID req.name req.language path req.isAsync createdBy)),
        Except.ok row⟩ : Answered PortalCall PortalCall.Response) ∈ history

/-- The statement fits what its request was told. -/
def Query.FitsAfter (history : PortalHistory) : Query → Prop
  | auth (.createUser id name _) => id = Passkeys.bytesOf name
  | project (.createProject _ createdBy) => TellsUser history createdBy
  | access (.addProjectOwner userID projectID) =>
      TellsUser history userID ∧ TellsCreation history userID projectID
  | access (.addViewerToProject userID projectID) =>
      TellsUser history userID ∧ TellsInvite history userID projectID
  | access (.createProjectInvite projectID _ createdBy _) =>
      TellsUser history createdBy ∧ TellsOwner history createdBy projectID
  | function (.createFunction _ _ language path _ _) => TellsLanguage history language path
  | function (.updateFunctionPath id _) => id = none
  | function (.updateFunctionIsAsync id _) => id = none
  | endpoint (.createEndpoint projectID name _ _ functionID) =>
      ∃ projectName functionName, TellsProject history projectID projectName ∧
        TellsFunction history projectID functionID functionName ∧
          name = s!"/{projectName}/{functionName}"
  | _ => True

def PortalCall.FitsAfter (history : PortalHistory) : PortalCall → Prop
  | query statement => statement.FitsAfter history
  | createFunctionCRD req => TellsRegistration history req
  | _ => True

section Histories

variable {history later : PortalHistory} {projectID functionID : Uuid} {name : String}

theorem TellsProject.mono (tells : TellsProject history projectID name) (grows : history <+: later) :
    TellsProject later projectID name := by
  cases tells with
  | read isName told => exact .read isName (grows.subset told)
  | created isID told => exact .created isID (grows.subset told)

theorem TellsFunction.mono (tells : TellsFunction history projectID functionID name)
    (grows : history <+: later) : TellsFunction later projectID functionID name := by
  cases tells with
  | listed member isID isName told => exact .listed member isID isName (grows.subset told)
  | created isID told => exact .created isID (grows.subset told)

theorem TellsUser.mono {userID : Bytes} (tells : TellsUser history userID) (grows : history <+: later) :
    TellsUser later userID := by
  obtain ⟨sessionID, row, told, isUser⟩ := tells
  exact ⟨sessionID, row, grows.subset told, isUser⟩

theorem prefix_snoc (history : PortalHistory) (answered : Answered PortalCall PortalCall.Response) :
    history <+: history ++ [answered] :=
  List.prefix_append _ _

end Histories

/-! ### Calls that need no memory -/

theorem PortalCall.IsPlain.fitsAfter {request : PortalCall} (plain : request.IsPlain)
    (history : PortalHistory) : request.FitsAfter history := by
  cases request with
  | query statement =>
      rcases statement with query | query | query | query | query <;> cases query <;>
        first | exact .inl plain | exact plain.elim | exact plain
  | createFunctionCRD req => exact plain.elim
  | _ => trivial

theorem Passkeys.IsFitting.fitsAfter {request : PortalCall} (fitting : Passkeys.IsFitting request)
    (history : Portal.PortalHistory) : request.FitsAfter history := by
  have befits := fitting.befits
    { db := .empty, saved := none, clock := 0
      cluster := { functions := .empty, deployments := .empty, services := .empty, clock := 0 } }
  cases request with
  | query statement =>
      rcases statement with query | query | query | query | query <;> cases query <;>
        first | exact .inl befits | exact befits | trivial | cases fitting.admits
      -- there is no project that could name an endpoint
      obtain ⟨project, member, -⟩ := befits
      cases member
  | createFunctionCRD req => cases fitting.admits
  | _ => trivial

/-! ### Rules -/

section Rules

variable {Result : Type} {finished : PortalHistory → Result → Prop} {history : PortalHistory}

/-- All calls of the program fit what was told before them. -/
abbrev Remembers (finished : PortalHistory → Result → Prop) (program : PortalProgram Result)
    (history : PortalHistory) : Prop :=
  program.Along (fun before request => request.FitsAfter before) finished history

theorem remembers_of_plain {program : PortalProgram Result} (plain : program.Makes PortalCall.IsPlain)
    (history : PortalHistory) :
    Remembers (fun after _ => history <+: after) program history :=
  ((plain.along history).extends).imp (fun before _ isPlain => isPlain.fitsAfter before)
    fun _ _ grows => grows.1

variable {assertion : PortalHistory → PortalCall → Prop}

theorem along_mustGetProject {c : Context} {handler : ProjectContext → Replies}
    {last : PortalHistory → List Reply → Prop} (panics : last history [.panicked])
    (along : ∀ project, c.project = some project → (handler project).Along assertion last history) :
    (c.mustGetProject handler).Along assertion last history := by
  unfold Context.mustGetProject
  cases isProject : c.project with
  | none => exact panics
  | some project => exact along project isProject

/-- A transaction whose work is answered before what follows it. -/
theorem along_inTransaction {Value : Type} {refused failed : Reply}
    {work : PortalProgram (Except (List Reply) Value)} {next : Value → Replies}
    {known : Value → PortalHistory → Prop}
    (transacts : ∀ before, assertion before .begin ∧ assertion before .commit ∧
      assertion before .rollback)
    (works : ∀ begun, history <+: begun →
      work.Along assertion (fun after result => ∀ value, result = .ok value → known value after) begun)
    (grows : ∀ value before after, before <+: after → known value before → known value after)
    (continues : ∀ value after, known value after →
      (next value).Along assertion (fun _ _ => True) after) :
    (ProjectHandlers.inTransaction refused failed work next).Along assertion (fun _ _ => True)
      history := by
  apply And.intro (transacts history).1
  intro begun
  cases begun with
  | false => trivial
  | true =>
      show Along _ _ _ (work >>= _)
      refine along_bind.mpr ((works _ (prefix_snoc _ _)).imp (fun _ _ => id) fun after result isKnown => ?_)
      cases result with
      | error replies => exact ⟨(transacts after).2.2, fun _ => trivial⟩
      | ok value =>
          apply And.intro (transacts after).2.1
          intro committed
          cases committed with
          | false => trivial
          | true => exact continues value _ (grows value _ _ (prefix_snoc _ _) (isKnown value rfl))

end Rules

/-! ### Functions and endpoints -/

section Storing

variable {history : PortalHistory} {projectUUID : Uuid} {projectName : String}

theorem ensureEndpoint_remembers {s : FunctionHandlers.SyncContext} {fnID : Uuid} {fnName : String}
    (project : TellsProject history s.projectUUID s.projectName)
    (function : TellsFunction history s.projectUUID fnID fnName) :
    Remembers (fun after _ => history <+: after) (FunctionHandlers.ensureEndpoint s fnID fnName)
      history := by
  unfold FunctionHandlers.ensureEndpoint
  split
  · exact List.prefix_rfl
  · exact ⟨⟨_, _, project, function, rfl⟩, fun _ => prefix_snoc _ _⟩

/-- The functions of a list were told. -/
def ToldFunctions (history : PortalHistory) (projectUUID : Uuid) (fns : List FunctionRow) : Prop :=
  (⟨.query (.function (.listFunctionsForProject projectUUID)), Except.ok fns⟩ :
    Answered PortalCall PortalCall.Response) ∈ history

theorem syncFile_remembers (settings : Settings) {s : FunctionHandlers.SyncContext}
    (project : TellsProject history s.projectUUID s.projectName)
    (told : ToldFunctions history s.projectUUID s.existingFns) (path : String) :
    Remembers (fun after _ => history <+: after) (FunctionHandlers.syncFile settings s path)
      history := by
  unfold FunctionHandlers.syncFile
  cases isLang : FunctionHandlers.extLang (FunctionHandlers.ext path) with
  | none => exact List.prefix_rfl
  | some lang =>
      dsimp only
      cases found : s.existingPath path with
      | some id =>
          obtain ⟨row, member, isPath, rfl⟩ := FunctionHandlers.mem_of_existingPath found
          refine ensureEndpoint_remembers project (.listed member rfl ?_ told)
          rw [isPath, FunctionHandlers.trimSuffix_base]
      | none =>
          rw [perform_bind]
          apply And.intro (.inl isLang)
          intro created
          have grows := prefix_snoc history ⟨_, created⟩
          cases created with
          | error err => exact grows
          | ok fn =>
              have told := List.mem_append_right history (List.mem_singleton_self
                (⟨.query (.function (.createFunction s.projectUUID (FunctionHandlers.trimSuffix
                  (FunctionHandlers.base path) (FunctionHandlers.ext path)) lang path false s.userID)),
                    Except.ok fn⟩ : Answered PortalCall PortalCall.Response))
              refine along_bind.mpr ((ensureEndpoint_remembers (project.mono grows)
                (.created rfl told)).imp (fun _ _ => id) ?_)
              intro after _ later
              refine ⟨⟨rfl, _, _, _, _, project.mono (grows.trans later), later.subset told⟩, fun _ => ?_⟩
              exact (grows.trans later).trans (prefix_snoc _ _)

theorem syncFiles_remembers (settings : Settings) {s : FunctionHandlers.SyncContext}
    (project : TellsProject history s.projectUUID s.projectName)
    (told : ToldFunctions history s.projectUUID s.existingFns) (paths : List String) :
    Remembers (fun _ _ => True) (FunctionHandlers.syncFiles settings s paths) history := by
  induction paths generalizing history with
  | nil => trivial
  | cons path paths ih =>
      refine along_bind.mpr ((syncFile_remembers settings project told path).imp (fun _ _ => id) ?_)
      exact fun after _ grows => ih (project.mono grows) (grows.subset told)

theorem syncRepoFunctionsToDb_remembers (settings : Settings) (userID : Bytes)
    (project : TellsProject history projectUUID projectName) :
    Remembers (fun _ _ => True)
      (FunctionHandlers.syncRepoFunctionsToDb settings projectUUID projectName userID) history := by
  apply And.intro trivial
  intro isNew
  cases isNew with
  | false => trivial
  | true =>
      apply And.intro trivial
      intro listed
      cases listed with
      | error err => trivial
      | ok existingFns =>
          apply And.intro trivial
          intro joined
          cases joined with
          | error err => trivial
          | ok existingEps =>
              apply And.intro trivial
              intro files
              show Remembers _ (FunctionHandlers.syncFiles settings _ files >>= _) _
              have grows : history <+: history ++ [⟨.repo projectName .new, true⟩] ++
                  [⟨.query (.function (.listFunctionsForProject projectUUID)), .ok existingFns⟩] ++
                  [⟨.query (.endpoint (.listEndpointsForProject projectUUID)), .ok existingEps⟩] ++
                  [⟨.repo projectName (.listFiles "/functions"), files⟩] :=
                (((prefix_snoc _ _).trans (prefix_snoc _ _)).trans (prefix_snoc _ _)).trans
                  (prefix_snoc _ _)
              let s : FunctionHandlers.SyncContext :=
                ⟨projectUUID, projectName, userID, existingFns, existingEps⟩
              have synced := @syncFiles_remembers _ settings s (project.mono grows)
                (by simp [ToldFunctions, s]) files
              exact along_bind.mpr (synced.imp (fun _ _ => id) fun _ _ _ => trivial)

variable {c : Context}

theorem syncProject_remembers (settings : Settings)
    (tells : ∀ project, c.project = some project →
      TellsProject history project.projectUUID project.projectName) :
    Remembers (fun _ _ => True) (ProjectHandlers.syncProject settings c) history := by
  refine along_mustGetProject trivial fun project isProject => ?_
  refine along_bind.mpr ((syncRepoFunctionsToDb_remembers settings c.userID
    (tells project isProject)).imp (fun _ _ => id) fun after isSynced _ => ?_)
  cases isSynced with
  | false => trivial
  | true =>
      apply And.intro trivial
      intro client
      cases client with
      | error text => trivial
      | ok _ =>
          apply And.intro trivial
          intro added
          cases added <;> trivial

theorem createFunction_remembers (settings : Settings)
    (body : Option FunctionHandlers.CreateFunctionRequest)
    (tells : ∀ project, c.project = some project →
      TellsProject history project.projectUUID project.projectName) :
    Remembers (fun _ _ => True) (FunctionHandlers.createFunction settings c body) history := by
  refine along_mustGetProject trivial fun project isProject => ?_
  cases body with
  | none => trivial
  | some req =>
      dsimp only
      split
      · trivial
      · next isLanguage =>
          obtain ⟨language, tag⟩ := (Language.langExt_ne_empty_iff req.language).mp isLanguage
          apply And.intro trivial
          intro listed
          cases listed with
          | error err => trivial
          | ok fns =>
              show Remembers _ (if fns.any (·.name = req.name) = true then _ else _) _
              split
              · trivial
              · refine along_bind.mpr ((remembers_of_plain
                  (FunctionHandlers.mkdirs_makes (fun _ => trivial) _) _).imp (fun _ _ => id) ?_)
                intro made _ growsMade
                rw [perform_bind]
                apply And.intro trivial
                intro isCreated
                cases isCreated with
                | false => trivial
                | true =>
                    show Remembers _ (if (!true) = true then _ else _) _
                    rw [Bool.not_true, if_neg Bool.false_ne_true]
                    refine along_bind.mpr ((remembers_of_plain
                      (FunctionHandlers.commitAndPush_makes (fun _ => trivial) _ _) _).imp
                        (fun _ _ => id) ?_)
                    intro pushed failed growsPushed
                    cases failed with
                    | some replies => trivial
                    | none =>
                        have fits : FunctionHandlers.extLang (FunctionHandlers.ext
                            s!"functions/{req.language}/{req.name}{Language.langExt req.language}") =
                              some req.language := by
                          have path := FunctionHandlers.file_eq_pathOf language tag
                          rw [FunctionHandlers.CreateFunctionRequest.file] at path
                          rw [path, FunctionHandlers.ext_pathOf, FunctionHandlers.extLang_ext, tag]
                        apply And.intro (.inl fits)
                        intro created
                        cases created with
                        | error err => trivial
                        | ok fn =>
                            have untilPushed : history <+: pushed :=
                              (((prefix_snoc _ _).trans growsMade).trans (prefix_snoc _ _)).trans
                                growsPushed
                            have known := (tells project isProject).mono untilPushed
                            refine ⟨⟨_, _, known.mono (prefix_snoc _ _), .created rfl
                              (List.mem_append_right _ List.mem_cons_self), rfl⟩, fun _ => ?_⟩
                            refine ⟨⟨rfl, _, _, _, fn,
                              (known.mono (prefix_snoc _ _)).mono (prefix_snoc _ _), ?_⟩, fun _ => trivial⟩
                            exact List.mem_append_left _ (List.mem_append_right _ List.mem_cons_self)

theorem deleteFunction_remembers (fnHex : String) :
    Remembers (fun _ _ => True) (FunctionHandlers.deleteFunction c fnHex) history := by
  unfold FunctionHandlers.deleteFunction
  cases HexText.decode fnHex with
  | none => trivial
  | some fnID =>
      apply And.intro trivial
      intro found
      cases found with
      | error err => trivial
      | ok f =>
          -- the row that is put back is the one that was read
          have restores : ∀ (later : PortalHistory) (text : String),
              history ++ [⟨.query (.function (.getFunctionByID (some (.copy fnID)))), .ok f⟩] <+: later →
              Remembers (fun _ _ => True) (FunctionHandlers.restoreFunction f text) later := by
            intro later text grows
            refine ⟨.inr ⟨_, f, grows.subset ?_, rfl, rfl⟩, fun _ => trivial⟩
            exact List.mem_append_right _ List.mem_cons_self
          apply And.intro trivial
          intro deleted
          cases deleted with
          | error err => trivial
          | ok _ =>
              refine along_mustGetProject trivial fun project _ => ?_
              apply And.intro trivial
              intro isRemoved
              cases isRemoved with
              | false => exact restores _ _ ((prefix_snoc _ _).trans (prefix_snoc _ _))
              | true =>
                  apply And.intro trivial
                  intro committed
                  cases committed with
                  | error err =>
                      exact restores _ _ (((prefix_snoc _ _).trans (prefix_snoc _ _)).trans
                        (prefix_snoc _ _))
                  | ok _ =>
                      apply And.intro trivial
                      intro isPushed
                      cases isPushed with
                      | false =>
                          exact restores _ _ ((((prefix_snoc _ _).trans (prefix_snoc _ _)).trans
                            (prefix_snoc _ _)).trans (prefix_snoc _ _))
                      | true => trivial

end Storing

/-! ### Projects -/

section Projects

variable {history : PortalHistory} {c : Context}

private theorem addWorkflow_remembers (project : Project) (repoName : String) {name : String}
    (tells : TellsProject history project.id name) :
    Remembers (fun after result => ∀ value, result = .ok value → TellsProject after value.id name)
      (ProjectHandlers.createProjectInTx.addWorkflow project repoName) history := by
  apply And.intro trivial
  intro added
  cases added with
  | error text => exact nofun
  | ok _ =>
      intro value isValue
      rw [← Except.ok.inj isValue]
      exact tells.mono (prefix_snoc _ _)

private theorem addWebhook_remembers (settings : Settings) (project : Project) (repoName : String)
    {name : String} (tells : TellsProject history project.id name) :
    Remembers (fun after result => ∀ value, result = .ok value → TellsProject after value.id name)
      (ProjectHandlers.createProjectInTx.addWebhook settings project repoName) history := by
  apply And.intro trivial
  intro added
  have workflow := addWorkflow_remembers project repoName (tells.mono (prefix_snoc history ⟨_, added⟩))
  cases added with
  | ok _ => exact workflow
  | error text =>
      show Remembers _ (if ProjectHandlers.alreadyExists text = true then _ else _) _
      split
      · exact workflow
      · exact nofun

theorem createProjectInTx_remembers (settings : Settings) (name : String)
    (user : TellsUser history c.userID) :
    Remembers (fun after result => ∀ value, result = .ok value → TellsProject after value.id name)
      (ProjectHandlers.createProjectInTx settings c name) history := by
  apply And.intro user
  intro created
  cases created with
  | error err => exact nofun
  | ok project =>
      have told := List.mem_append_right history (List.mem_singleton_self
        (⟨.query (.project (.createProject name c.userID)), Except.ok project⟩ :
          Answered PortalCall PortalCall.Response))
      have tells : TellsProject (history ++ [⟨.query (.project (.createProject name c.userID)),
          Except.ok project⟩]) project.id name := .created rfl told
      apply And.intro ⟨user.mono (prefix_snoc _ _), name, project, told, rfl⟩
      intro owned
      cases owned with
      | error err => exact nofun
      | ok _ =>
          apply And.intro trivial
          intro repo
          have webhook (repoName : String) := addWebhook_remembers settings project repoName
            ((tells.mono (prefix_snoc _ ⟨.query (.access (.addProjectOwner c.userID project.id)),
              Except.ok ()⟩)).mono (prefix_snoc _ ⟨_, repo⟩))
          cases repo with
          | ok repoName => exact webhook repoName
          | error text =>
              show Remembers _ (if ProjectHandlers.alreadyExists text = true then _ else _) _
              split
              · exact webhook name
              · exact nofun

theorem createProject_remembers (settings : Settings) (body : Option String)
    (user : TellsUser history c.userID) :
    Remembers (fun _ _ => True) (ProjectHandlers.createProject settings c body) history := by
  cases body with
  | none => trivial
  | some reqName =>
      apply And.intro trivial
      intro client
      have userLater := user.mono (prefix_snoc history ⟨.newVendorClient, client⟩)
      cases client with
      | error text => trivial
      | ok _ =>
          refine along_inTransaction (fun _ => ⟨trivial, trivial, trivial⟩)
            (fun _ grows => createProjectInTx_remembers settings _ (userLater.mono grows))
            (fun _ _ _ grows tells => tells.mono grows) fun project after tells => ?_
          exact along_bind.mpr ((syncRepoFunctionsToDb_remembers settings c.userID tells).imp
            (fun _ _ => id) fun _ _ _ => trivial)

/-- A transaction that only its reply follows. -/
theorem remembers_transaction {Value : Type} {refused failed : Reply}
    {work : PortalProgram (Except (List Reply) Value)} {reply : Value → List Reply}
    (works : ∀ begun, history <+: begun → Remembers (fun _ _ => True) work begun) :
    Remembers (fun _ _ => True)
      (ProjectHandlers.inTransaction refused failed work fun value => return reply value) history :=
  along_inTransaction (fun _ => ⟨trivial, trivial, trivial⟩)
    (fun begun grows => (works begun grows).imp (fun _ _ => id) fun _ _ _ _ _ => True.intro)
    (fun _ _ _ _ _ => True.intro) fun _ _ _ => trivial

theorem createInviteInTx_remembers {user : Bytes} (project : Uuid) (tells : TellsUser history user) :
    Remembers (fun _ _ => True) (ProjectHandlers.createInviteInTx user project) history := by
  apply And.intro trivial
  intro role
  cases role with
  | error err => trivial
  | ok role =>
      show Remembers _ (if role ≠ "owner" then _ else _) _
      split
      · trivial
      · next isOwner =>
          obtain rfl : role = "owner" := not_not.mp isOwner
          refine ⟨trivial, fun draws => ⟨trivial, fun issued => ⟨⟨?_, ?_⟩, fun created => ?_⟩⟩⟩
          · exact ((tells.mono (prefix_snoc _ _)).mono (prefix_snoc _ _)).mono (prefix_snoc _ _)
          · simp [TellsOwner]
          · cases created <;> trivial

theorem joinInTx_remembers {user : Bytes} (code : String) (tells : TellsUser history user) :
    Remembers (fun _ _ => True) (ProjectHandlers.joinInTx user code) history := by
  apply And.intro trivial
  intro found
  cases found with
  | error err => trivial
  | ok invite =>
      show Remembers _ (if invite.createdBy = user then _ else _) _
      split
      · trivial
      · next isOther =>
          refine ⟨⟨tells.mono (prefix_snoc _ _), code, invite,
            List.mem_append_right _ List.mem_cons_self, rfl, isOther⟩, fun added => ?_⟩
          cases added with
          | error err => trivial
          | ok _ =>
              apply And.intro trivial
              intro consumed
              cases consumed <;> trivial

end Projects

/-! ### Requests -/

section Requests

variable {Response : Type} {history : PortalHistory} {c : Context} {cookies : Cookies}

theorem ProjectRoute.handle_remembers (route : ProjectRoute) (settings : Settings)
    (user : TellsUser history c.userID)
    (tells : ∀ project, c.project = some project →
      TellsProject history project.projectUUID project.projectName) :
    Remembers (fun _ _ => True) (route.handle settings cookies c) history := by
  cases isPlain : route.isPlain with
  | true =>
      exact (remembers_of_plain (route.handle_plain isPlain settings cookies c) history).imp
        (fun _ _ => id) fun _ _ _ => trivial
  | false =>
      cases route with
      | syncProject => exact syncProject_remembers settings tells
      | createProjectInvite =>
          exact along_mustGetProject trivial fun project _ =>
            remembers_transaction fun _ grows => createInviteInTx_remembers _ (user.mono grows)
      | createFunction body => exact createFunction_remembers settings body tells
      | deleteFunction fnID => exact deleteFunction_remembers fnID
      | _ => cases isPlain

theorem UserRoute.handle_remembers (route : UserRoute) (settings : Settings)
    (user : TellsUser history c.userID) :
    Remembers (fun _ _ => True) (route.handle settings cookies c) history := by
  cases route with
  | dashboard =>
      exact (remembers_of_plain (plain_of_calm (dashboard_calm cookies c)) history).imp (fun _ _ => id)
        fun _ _ _ => trivial
  | createProject body => exact createProject_remembers settings body user
  | joinProjectByInvite code =>
      show Remembers _ (ProjectHandlers.joinProjectByInvite c code) _
      unfold ProjectHandlers.joinProjectByInvite
      split
      · trivial
      · exact remembers_transaction fun _ grows => joinInTx_remembers _ (user.mono grows)

/-- A request goes on with the user of its session. -/
theorem authMiddleware_remembers (path : String) :
    Remembers (fun after result => ∀ c, result = .ok c →
        c.project = none ∧ TellsUser after c.userID) (authMiddleware cookies path) history := by
  unfold authMiddleware
  cases cookies.session with
  | none => exact nofun
  | some sessionID =>
      apply And.intro trivial
      intro session
      cases session with
      | error err => exact nofun
      | ok session =>
          apply And.intro trivial
          intro user
          cases user with
          | error err => exact nofun
          | ok user =>
              intro c isContext
              rw [← Except.ok.inj isContext]
              exact ⟨rfl, sessionID, session, by simp, rfl⟩

theorem projectMiddleware_remembers :
    Remembers (fun after result => ∀ project, result = .ok project →
        TellsProject after project.projectUUID project.projectName)
      (projectMiddleware cookies) history := by
  unfold projectMiddleware
  cases cookies.project with
  | none => exact nofun
  | some projectIDHex =>
      dsimp only
      cases HexText.decode projectIDHex with
      | none => exact nofun
      | some projectIDBytes =>
          dsimp only
          split
          · exact nofun
          · apply And.intro trivial
            intro found
            cases found with
            | error err => exact nofun
            | ok proj =>
                apply And.intro trivial
                intro isNew
                cases isNew with
                | false => exact nofun
                | true =>
                    intro project isProject
                    rw [← Except.ok.inj isProject]
                    refine .read rfl (List.mem_append_left _ ?_)
                    exact List.mem_append_right _ List.mem_cons_self

/-- Every statement of a request fits what the request was told. -/
theorem serve_remembers (settings : Settings) (authn : Passkeys.WebAuthn Response)
    (request : Request Response) :
    Remembers (fun _ _ => True) (serve settings authn request) [] := by
  obtain ⟨cookies, route⟩ := request
  cases route with
  | passkey route =>
      exact ((Passkeys.handle_fitting settings authn cookies route).along []).imp
        (fun before _ fitting => fitting.fitsAfter before) fun _ _ => id
  | user route =>
      refine along_bind.mpr ((authMiddleware_remembers route.path).imp (fun _ _ => id) ?_)
      intro after result known
      cases result with
      | error replies => trivial
      | ok c => exact route.handle_remembers settings (known c rfl).2
  | project route =>
      refine along_bind.mpr ((authMiddleware_remembers route.path).imp (fun _ _ => id) ?_)
      intro after result known
      cases result with
      | error replies => trivial
      | ok c =>
          obtain ⟨noProject, user⟩ := known c rfl
          have middleware : Remembers _ (projectMiddleware cookies) after := projectMiddleware_remembers
          refine along_bind.mpr (middleware.extends.imp (fun _ _ => id) ?_)
          rintro later result ⟨grows, tells⟩
          cases result with
          | error replies =>
              -- the handlers go on without a project
              refine along_bind.mpr ((route.handle_remembers settings (user.mono grows) ?_).imp
                (fun _ _ => id) fun _ _ _ => trivial)
              rw [noProject]
              exact nofun
          | ok project =>
              refine route.handle_remembers settings (user.mono grows) fun chosen isChosen => ?_
              obtain rfl := Option.some.inj isChosen
              exact tells _ rfl

end Requests

end Portal

end Litefunctions
