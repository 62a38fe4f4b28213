import Litefunctions.RefusedCreations
import Litefunctions.SeparatedText
import Litefunctions.SyncedFunctions

/-!
# Paths of created functions

`CreateFunction` puts any name into the path of the file, and the walk over a
repository reads the name of a function from such a path.  A name with a slash
moves the file to another directory, and is not read back.
-/

namespace Litefunctions

/-- What a program was answered on its way, it had called. -/
theorem Program.Along.mem_of_reaches {Call : Type} {Response : Call → Type} {Result : Type}
    {quiet : Call → Prop} {finished : List (Answered Call Response) → Result → Prop}
    {program rest : Program Call Response Result} {early history : List (Answered Call Response)}
    (along : program.Along (fun _ call => quiet call) finished early)
    (reaches : program.Reaches history rest) {answered : Answered Call Response}
    (member : answered ∈ history) : quiet answered.1 := by
  induction history generalizing program early with
  | nil => cases member
  | cons first history ih =>
      obtain ⟨next, rfl, reaches⟩ := reaches
      rcases List.mem_cons.mp member with rfl | later
      · exact along.1
      · exact ih (along.2 first.2) reaches later

namespace Portal

open Program SeparatedText

namespace FunctionHandlers

/-! ### Clean paths -/

/-- One segment of a relative path in `filepath.Clean`; the segments before it
stand in reverse order. -/
def cleanSegment (before : List String) (segment : String) : List String :=
  if segment = "" ∨ segment = "." then before
  else if segment = ".." then
    match before with
    | [] => [".."]
    | top :: rest => if top = ".." then ".." :: top :: rest else rest
  else segment :: before

/-- The segments of `filepath.Clean` of a relative path. -/
def clean (path : String) : List String :=
  ((pieces '/' path).foldl cleanSegment []).reverse

/-- The clean path is that of a file in the directory of a language. -/
def LiesIn (language path : String) : Prop :=
  ∃ file, clean path = ["functions", language, file]

theorem cleanSegment_plain {segment : String} (plain : segment ≠ "" ∧ segment ≠ "." ∧ segment ≠ "..")
    (before : List String) : cleanSegment before segment = segment :: before := by
  unfold cleanSegment
  rw [if_neg (not_or.mpr ⟨plain.1, plain.2.1⟩), if_neg plain.2.2]

/-! ### The path of a request -/

section Paths

variable (language : Language) (name : String)

/-- The path that `CreateFunction` writes a function to. -/
def pathOf : String :=
  s!"functions/{language.tag}/{name}{language.ext}"

theorem file_eq_pathOf {req : CreateFunctionRequest} (isLanguage : language.tag = req.language) :
    req.file = pathOf language req.name := by
  have extEq : Language.langExt req.language = language.ext := by
    rw [← isLanguage]
    cases language <;> decide
  rw [CreateFunctionRequest.file, extEq, ← isLanguage]
  rfl

theorem pathOf_toList :
    (pathOf language name).toList =
      "functions".toList ++ '/' :: (language.tag.toList ++ '/' ::
        (name.toList ++ language.ext.toList)) := by
  simp [pathOf, toString]

theorem slash_notMem_tag : '/' ∉ language.tag.toList := by
  cases language <;> decide

theorem slash_notMem_ext : '/' ∉ language.ext.toList := by
  cases language <;> decide

theorem pathOf_reverse :
    (pathOf language name).toList.reverse =
      language.ext.toList.reverse ++ (name.toList.reverse ++ ('/' ::
        (language.tag.toList.reverse ++ '/' :: "functions".toList.reverse))) := by
  rw [pathOf_toList]
  simp only [List.reverse_append, List.reverse_cons, List.append_assoc, List.cons_append,
    List.nil_append]

/-- The last dot of a path is that of the extension. -/
theorem ext_pathOf : ext (pathOf language name) = language.ext := by
  unfold ext
  rw [pathOf_reverse]
  cases language <;> simp [Language.ext]

theorem extLang_ext : extLang language.ext = some language.tag := by
  cases language <;> decide

variable {name}

theorem base_pathOf (slashless : '/' ∉ name.toList) :
    base (pathOf language name) = name ++ language.ext := by
  have file : '/' ∉ (name.toList ++ language.ext.toList).reverse := by
    simp only [List.mem_reverse, List.mem_append, not_or]
    exact ⟨slashless, slash_notMem_ext language⟩
  have plain : ∀ char ∈ (name.toList ++ language.ext.toList).reverse,
      decide (char ≠ '/') = true := by
    intro char member
    apply decide_eq_true
    rintro rfl
    exact file member
  rw [base, pathOf_reverse, ← List.append_assoc, ← List.reverse_append,
    List.takeWhile_append_of_pos plain, List.takeWhile_cons_of_neg (by decide),
    List.append_nil, List.reverse_reverse, ← String.toList_append, String.ofList_toList]

theorem trimSuffix_append (text ending : String) : trimSuffix (text ++ ending) ending = text := by
  have isSuffix : ending.toList.isSuffixOf (text ++ ending).toList = true := by
    rw [List.isSuffixOf_iff_suffix, String.toList_append]
    exact List.suffix_append _ _
  have length : (text ++ ending).length - ending.length = text.toList.length := by
    rw [String.length_append, Nat.add_sub_cancel, String.length_toList]
  rw [trimSuffix, if_pos isSuffix, length, String.toList_append, List.take_left,
    String.ofList_toList]

theorem nameOf_pathOf (slashless : '/' ∉ name.toList) : nameOf (pathOf language name) = name := by
  rw [← trimSuffix_base, ext_pathOf, base_pathOf language slashless, trimSuffix_append]

/-- A name that a walk reads has no slash. -/
theorem slash_notMem_nameOf (path : String) : '/' ∉ (nameOf path).toList := by
  have baseSlashless : '/' ∉ (base path).toList := by
    rw [base, String.toList_ofList, List.mem_reverse]
    intro member
    have other := List.mem_takeWhile_imp member
    exact absurd rfl (of_decide_eq_true other)
  rw [← trimSuffix_base, trimSuffix]
  split
  · rw [String.toList_ofList]
    exact fun member => baseSlashless (List.mem_of_mem_take member)
  · exact baseSlashless

theorem pieces_pathOf (slashless : '/' ∉ name.toList) :
    pieces '/' (pathOf language name) = ["functions", language.tag, name ++ language.ext] := by
  have file : '/' ∉ name.toList ++ language.ext.toList := by
    rw [List.mem_append, not_or]
    exact ⟨slashless, slash_notMem_ext language⟩
  rw [pieces, pathOf_toList, List.splitOn_append_cons_self, List.splitOn_append_cons_self,
    List.splitOn_eq_singleton file, List.splitOn_eq_singleton (slash_notMem_tag language),
    List.splitOn_eq_singleton (by decide)]
  simp [← String.toList_append]

theorem clean_pathOf (slashless : '/' ∉ name.toList) :
    clean (pathOf language name) = ["functions", language.tag, name ++ language.ext] := by
  have tagPlain : language.tag ≠ "" ∧ language.tag ≠ "." ∧ language.tag ≠ ".." := by
    cases language <;> decide
  have long : 3 ≤ (name ++ language.ext).length := by
    have extension : 3 ≤ language.ext.length := by cases language <;> decide
    rw [String.length_append]
    omega
  have filePlain : name ++ language.ext ≠ "" ∧ name ++ language.ext ≠ "." ∧
      name ++ language.ext ≠ ".." := by
    refine ⟨?_, ?_, ?_⟩
    all_goals
      intro same
      rw [same] at long
      exact absurd long (by decide)
  rw [clean, pieces_pathOf language slashless]
  have functionsPlain : "functions" ≠ "" ∧ "functions" ≠ "." ∧ "functions" ≠ ".." := by decide
  rw [List.foldl_cons, List.foldl_cons, List.foldl_cons, List.foldl_nil,
    cleanSegment_plain functionsPlain, cleanSegment_plain tagPlain, cleanSegment_plain filePlain]
  rfl

end Paths

/-! ### The calls of a request -/

/-- The insertion of the row of a request. -/
def insertion (c : Context) (project : ProjectContext) (req : CreateFunctionRequest) : PortalCall :=
  .query (.function (.createFunction project.projectUUID req.name req.language req.file
    req.isAsync c.userID))

/-- The calls that a request makes. -/
inductive CreationCall (c : Context) (project : ProjectContext) (req : CreateFunctionRequest) :
    PortalCall → Prop
  | lists : CreationCall c project req
      (.query (.function (.listFunctionsForProject project.projectUUID)))
  | makesDirectory (directory : String) :
      CreationCall c project req (.repo project.projectName (.mkdirAll directory))
  | writes (content : Bytes) :
      CreationCall c project req (.repo project.projectName (.create req.file content))
  | commits : CreationCall c project req (.repo project.projectName (.commit req.file))
  | pushes : CreationCall c project req (.repo project.projectName .push)
  | inserts : CreationCall c project req (insertion c project req)
  | addsEndpoint (name method scope : String) (functionID : Uuid) : CreationCall c project req
      (.query (.endpoint (.createEndpoint project.projectUUID name method scope functionID)))
  | registers (crd : Operator.CreateFunctionRequest) :
      CreationCall c project req (.createFunctionCRD crd)

section Calls

variable {Result : Type} {assertion : List (Answered PortalCall PortalCall.Response) → PortalCall → Prop}
variable {history : List (Answered PortalCall PortalCall.Response)}

theorem mkdirs_along {project : String} {directories : List String}
    {finished : List (Answered PortalCall PortalCall.Response) → Result → Prop}
    {continuation : PortalProgram Result}
    (makes : ∀ history directory, assertion history (.repo project (.mkdirAll directory)))
    (goesOn : ∀ after, continuation.Along assertion finished after) :
    (mkdirs project directories >>= fun _ => continuation).Along assertion finished history := by
  induction directories generalizing history with
  | nil => exact goesOn history
  | cons directory directories ih => exact ⟨makes history directory, fun _ => ih⟩

/-- A commit and a push end well, with the commit called, or in an error. -/
theorem commitAndPush_along {project path : String} {tolerated : CommitError → Bool}
    {finished : List (Answered PortalCall PortalCall.Response) → Option (List Reply) → Prop}
    (commits : ∀ history, assertion history (.repo project (.commit path)))
    (pushes : ∀ history, assertion history (.repo project .push))
    (published : ∀ after, ∀ answered ∈ after, answered.1 = .repo project (.commit path) →
      finished after none)
    (failed : ∀ after text, finished after (some [.error 500 text])) :
    (commitAndPush project path tolerated).Along assertion finished history := by
  unfold commitAndPush
  extract_lets pushed
  have along : ∀ before, ∀ answered ∈ before, answered.1 = .repo project (.commit path) →
      pushed.Along assertion finished before := by
    intro before answered member isCommit
    apply And.intro (pushes before)
    intro isPushed
    cases isPushed with
    | false => exact failed _ _
    | true => exact published _ answered (List.mem_append_left _ member) isCommit
  apply And.intro (commits history)
  intro committed
  have called : (⟨.repo project (.commit path), committed⟩ : Answered PortalCall PortalCall.Response) ∈
      history ++ [⟨.repo project (.commit path), committed⟩] :=
    List.mem_append_right _ List.mem_cons_self
  cases committed with
  | error err =>
      change (if tolerated err = true then pushed else _).Along assertion finished _
      split
      · exact along _ _ called rfl
      · exact failed _ _
  | ok _ => exact along _ _ called rfl

end Calls

/-- A call of the history is the given one. -/
def HasCalled (history : List (Answered PortalCall PortalCall.Response)) (call : PortalCall) : Prop :=
  ∃ answered ∈ history, answered.1 = call

/-- A request that is answered with 201 has committed its file and inserted its row. -/
theorem createFunction_along (settings : Settings) {c : Context} {project : ProjectContext}
    (isProject : c.project = some project) (req : CreateFunctionRequest) :
    (createFunction settings c (some req)).Along (fun _ call => CreationCall c project req call)
      (fun history replies => Answers 201 replies →
        HasCalled history (.repo project.projectName (.commit req.file)) ∧
          HasCalled history (insertion c project req)) [] := by
  have refused (text : String) {status : Nat} (other : status ≠ 201)
      (history : List (Answered PortalCall PortalCall.Response)) :
      Answers 201 [.error status text] →
        HasCalled history (.repo project.projectName (.commit req.file)) ∧
          HasCalled history (insertion c project req) :=
    fun created => absurd created (not_answers_other other _)
  unfold createFunction Context.mustGetProject
  rw [isProject]
  dsimp only
  split
  · exact refused _ (by decide) _
  · apply And.intro .lists
    intro listed
    cases listed with
    | error _ => exact refused _ (by decide) _
    | ok fns =>
        change Program.Along _ _ _ (if _ then _ else _)
        split
        · exact refused _ (by decide) _
        · apply mkdirs_along (fun _ directory => .makesDirectory directory)
          intro afterDirectories
          apply And.intro (.writes _)
          intro created
          cases created with
          | false => exact refused _ (by decide) _
          | true =>
              change Program.Along _ _ _ (commitAndPush _ _ _ >>= _)
              apply along_bind.mpr
              apply commitAndPush_along (fun _ => .commits) (fun _ => .pushes)
              · intro afterPush committed member isCommit
                apply And.intro .inserts
                intro inserted
                cases inserted with
                | error _ => exact refused _ (by decide) _
                | ok fn =>
                    refine ⟨.addsEndpoint _ _ _ _, fun _ => ⟨.registers _, fun _ _ => ⟨?_, ?_⟩⟩⟩
                    · exact ⟨committed, List.mem_append_left _ (List.mem_append_left _
                        (List.mem_append_left _ member)), isCommit⟩
                    · exact ⟨⟨insertion c project req, .ok fn⟩, List.mem_append_left _
                        (List.mem_append_left _ (List.mem_append_right _ List.mem_cons_self)), rfl⟩
              · intro afterPush text
                exact refused _ (by decide) _

/-! ### Accepted requests -/

/-- A file is written into the directory of its language, and the row of a
function has the name and the language that a walk reads from its path. -/
def KeepsForm (language : String) : PortalCall → Prop
  | .repo _ (.create path _) => LiesIn language path
  | .query (.function (.createFunction _ name language path _ _)) =>
      nameOf path = name ∧ extLang (ext path) = some language
  | _ => True

section Accepted

variable {settings : Settings} {c : Context} {req : CreateFunctionRequest}
variable {history : List (Answered PortalCall PortalCall.Response)} {replies : List Reply}

theorem exists_project_of_created
    (reaches : (createFunction settings c (some req)).Reaches history (.done replies))
    (created : Answers 201 replies) : ∃ project, c.project = some project := by
  cases isProject : c.project with
  | some project => exact ⟨project, rfl⟩
  | none =>
      rw [createFunction, Context.mustGetProject, isProject] at reaches
      cases history with
      | nil =>
          obtain rfl := Program.done.inj reaches
          obtain ⟨body, member⟩ := created
          cases List.mem_singleton.mp member
      | cons answered history =>
          obtain ⟨next, isCall, -⟩ := reaches
          cases isCall

theorem exists_language_of_created
    (reaches : (createFunction settings c (some req)).Reaches history (.done replies))
    (created : Answers 201 replies) : ∃ language : Language, language.tag = req.language := by
  obtain ⟨project, isProject⟩ := exists_project_of_created reaches created
  apply (Language.langExt_ne_empty_iff req.language).mp
  intro unknown
  rw [createFunction, Context.mustGetProject, isProject] at reaches
  dsimp only at reaches
  rw [if_pos unknown] at reaches
  cases history with
  | nil =>
      obtain rfl := Program.done.inj reaches
      exact not_answers_other (by decide) _ created
  | cons answered history =>
      obtain ⟨next, isCall, -⟩ := reaches
      cases isCall

theorem CreationCall.keepsForm {language : Language} (isLanguage : language.tag = req.language)
    (slashless : '/' ∉ req.name.toList) {project : ProjectContext} {call : PortalCall}
    (creates : CreationCall c project req call) : KeepsForm req.language call := by
  have file := file_eq_pathOf language isLanguage
  cases creates with
  | writes content =>
      change LiesIn req.language req.file
      rw [file, ← isLanguage]
      exact ⟨_, clean_pathOf language slashless⟩
  | inserts =>
      change nameOf req.file = req.name ∧ extLang (ext req.file) = some req.language
      rw [file, nameOf_pathOf language slashless, ext_pathOf, extLang_ext, isLanguage]
      exact ⟨rfl, rfl⟩
  | _ => trivial

theorem slash_notMem_of_keepsForm
    (reaches : (createFunction settings c (some req)).Reaches history (.done replies))
    (created : Answers 201 replies)
    (keeps : ∀ answered ∈ history, KeepsForm req.language answered.1) : '/' ∉ req.name.toList := by
  obtain ⟨project, isProject⟩ := exists_project_of_created reaches created
  have along := createFunction_along settings isProject req
  obtain ⟨answered, member, isInsertion⟩ := (along.of_reaches reaches created).2
  have form := keeps answered member
  rw [isInsertion] at form
  rw [← form.1]
  exact slash_notMem_nameOf req.file

/-- A request that is answered with 201 has written a file of its language, and
stored what a walk reads from the path, exactly when its name has no slash. -/
theorem createFunction_keepsForm_iff
    (reaches : (createFunction settings c (some req)).Reaches history (.done replies))
    (created : Answers 201 replies) :
    (∀ answered ∈ history, KeepsForm req.language answered.1) ↔ '/' ∉ req.name.toList := by
  obtain ⟨project, isProject⟩ := exists_project_of_created reaches created
  obtain ⟨language, isLanguage⟩ := exists_language_of_created reaches created
  constructor
  · exact slash_notMem_of_keepsForm reaches created
  · intro slashless answered member
    have along := createFunction_along settings isProject req
    exact (along.mem_of_reaches reaches member).keepsForm isLanguage slashless

end Accepted

/-! ### Requests that are accepted -/

/-- With some answers the program ends in a reply with status 201. -/
def CanCreate (program : Replies) : Prop :=
  ∃ history replies, program.Reaches history (.done replies) ∧ Answers 201 replies

theorem canCreate_call {request : PortalCall} {next : request.Response → Replies}
    (response : request.Response) (creates : CanCreate (next response)) :
    CanCreate (.call request next) := by
  obtain ⟨history, replies, reaches, created⟩ := creates
  exact ⟨⟨request, response⟩ :: history, replies, ⟨next, rfl, reaches⟩, created⟩

theorem canCreate_mkdirs {project : String} {directories : List String} {continuation : Replies}
    (creates : CanCreate continuation) :
    CanCreate (mkdirs project directories >>= fun _ => continuation) := by
  induction directories with
  | nil => exact creates
  | cons directory directories ih => exact canCreate_call () ih

/-- Any name can be created in a known language. -/
theorem canCreate_createFunction (settings : Settings) (c : Context) (req : CreateFunctionRequest)
    {project : ProjectContext} (isProject : c.project = some project)
    (known : Language.langExt req.language ≠ "") (row : FunctionRow) :
    CanCreate (createFunction settings c (some req)) := by
  unfold createFunction Context.mustGetProject
  rw [isProject]
  dsimp only
  rw [if_neg known]
  apply canCreate_call (Except.ok [] : Except DbError (List FunctionRow))
  rw [Program.bind]
  dsimp only
  rw [List.any_nil, if_neg Bool.false_ne_true]
  apply canCreate_mkdirs
  apply canCreate_call true
  apply canCreate_call (Except.ok () : Except CommitError Unit)
  apply canCreate_call true
  apply canCreate_call (Except.ok row : Except DbError FunctionRow)
  apply canCreate_call (Except.error .failed : Except DbError Endpoint)
  apply canCreate_call (none : Option Bool)
  exact ⟨[], _, rfl, _, List.mem_singleton_self _⟩

theorem createTotal_keepsForm :
    ∃ history replies, (createFunction creationSettings shopContext (some createTotal)).Reaches
        history (.done replies) ∧ Answers 201 replies ∧
      ∀ answered ∈ history, KeepsForm "lua" answered.1 := by
  obtain ⟨history, replies, reaches, created⟩ :=
    canCreate_createFunction creationSettings shopContext createTotal rfl (by decide) totalRow
  have slashless : '/' ∉ createTotal.name.toList := by decide
  exact ⟨history, replies, reaches, created,
    (createFunction_keepsForm_iff reaches created).mpr slashless⟩

/-- The name `../ts/total` moves a function in Lua to the directory of another
language. -/
theorem parentName_leaves :
    (¬ ∀ (settings : Settings) (c : Context) (req : CreateFunctionRequest)
      (history : List (Answered PortalCall PortalCall.Response)) (replies : List Reply),
      (createFunction settings c (some req)).Reaches history (.done replies) →
        Answers 201 replies → ∀ answered ∈ history, KeepsForm req.language answered.1) ∧
      clean (pathOf .lua "../ts/total") = ["functions", "ts", "total.lua"] := by
  refine ⟨fun always => ?_, by decide +kernel⟩
  obtain ⟨history, replies, reaches, created⟩ := canCreate_createFunction creationSettings
    shopContext { createTotal with name := "../ts/total" } rfl (by decide) totalRow
  have slashless := slash_notMem_of_keepsForm reaches created
    (always creationSettings shopContext _ history replies reaches created)
  exact absurd slashless (by decide)

end FunctionHandlers

end Portal

end Litefunctions
