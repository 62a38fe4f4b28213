import Litefunctions.ModuleCaches
import Litefunctions.ProgramSpecs

/-!
# Reloaded modules

When a refresh has completed, every module that can be imported under the new
version is the written file.  The cache was emptied then, but an invocation
that began its import before can still store what it loaded.  Unless that
happens, the invocations that start after the refresh run what it wrote.
-/

namespace Litefunctions

namespace TsRuntime

open Program Event

variable {Code : Type} {root : Path} {shared other : Shared Code}

/-! ### Refreshes -/

/-- The function files are those that the latest refresh has written. -/
def Shared.Matches (shared : Shared Code) : Prop :=
  ∀ entry, isFunctionFile entry = true → shared.files.lookup entry = shared.written entry

/-- Function files change only during a refresh, which completes when they are
as it wrote them. -/
def TsCall.Keeps (shared : Shared Code) : TsCall Code → Prop
  | .rm _ => shared.refreshed = false
  | .openFile _ => shared.refreshed = false
  | .writeFile _ _ => shared.refreshed = false
  | .clearModuleCache => shared.refreshed = false ∧ shared.Matches
  | _ => True

/-- The calls of refreshes. -/
def TsCall.isRefresh : TsCall Code → Bool
  | .getModule _ => false
  | .stat _ => false
  | .readModuleVersion => false
  | .importModule _ _ => false
  | .setModule _ _ => false
  | .handle _ _ => false
  | _ => true

/-- A call of a refresh that changes the files only as it may. -/
def Refreshing (call : TsCall Code) (shared : Shared Code) : Prop :=
  call.isRefresh = true ∧ call.Keeps shared

/-- A part of a refresh that ends before the refresh does. -/
def Copied (copied : Bool) (shared : Shared Code) : Prop :=
  shared.refreshed = false ∧ (copied = true → shared.Matches)

theorem Copied.stopped (started : shared.refreshed = false) : Copied false shared :=
  ⟨started, nofun⟩

theorem removeFunctionFiles_ensures (entries : List String) (started : shared.refreshed = false)
    (unwritten : ∀ entry, shared.written entry = none)
    (left : ∀ entry ∈ shared.files, isFunctionFile entry = true → entry ∈ entries) :
    (removeFunctionFiles entries).Ensures (TsCall.execute root) Refreshing Copied shared := by
  induction entries generalizing shared with
  | nil =>
      apply And.intro started
      intro _ entry isFunction
      rw [unwritten, AList.lookup_eq_none]
      intro member
      cases left entry member isFunction
  | cons entry entries ih =>
      rw [removeFunctionFiles]
      split
      · rw [perform_bind, ensures_call]
        refine ⟨⟨rfl, started⟩, fun circumstance => ?_⟩
        cases failed : circumstance.failed with
        | true =>
            simp only [TsCall.execute, failed]
            exact Copied.stopped started
        | false =>
            simp only [TsCall.execute, failed]
            refine ih started unwritten fun kept member isFunction => ?_
            have ⟨differs, present⟩ := AList.mem_erase.mp member
            exact (List.mem_cons.mp (left kept present isFunction)).resolve_left differs
      · next notFunction =>
          apply ih started unwritten
          intro kept member isFunction
          refine (List.mem_cons.mp (left kept member isFunction)).resolve_left ?_
          rintro rfl
          exact notFunction isFunction

/-- Writing a file keeps the others as they were written. -/
theorem Shared.Matches.write {files : AList fun _ : String => Code} {entry : String}
    (isMatch : ∀ other, other ≠ entry → isFunctionFile other = true →
      files.lookup other = shared.written other) (content : Code) :
    { shared with
      files := files.insert entry content
      written := Function.update shared.written entry (some content) }.Matches := by
  intro other isFunction
  by_cases same : other = entry
  · subst same
    simp
  · rw [AList.lookup_insert_ne same]
    simp [same, isMatch other same isFunction]

theorem execute_openFile (entry : String) (circumstance : TsCall.Circumstance Code) :
    ∃ files : AList fun _ : String => Code,
      (TsCall.openFile entry).execute root circumstance shared =
        (!circumstance.failed, { shared with files }) ∧
      ∀ other, other ≠ entry → files.lookup other = shared.files.lookup other := by
  cases content : circumstance.content with
  | none => exact ⟨shared.files, by simp only [TsCall.execute, content], fun _ _ => rfl⟩
  | some part =>
      refine ⟨shared.files.insert entry part, by simp only [TsCall.execute, content], ?_⟩
      exact fun other differs => AList.lookup_insert_ne differs

theorem copyFunctionFiles_ensures (entries : List String) (started : shared.refreshed = false)
    (isMatch : shared.Matches) :
    (copyFunctionFiles entries).Ensures (TsCall.execute root) Refreshing Copied shared := by
  induction entries generalizing shared with
  | nil => exact ⟨started, fun _ => isMatch⟩
  | cons entry entries ih =>
      rw [copyFunctionFiles]
      split
      · rw [perform_bind, ensures_call]
        refine ⟨⟨rfl, trivial⟩, fun reading => ?_⟩
        simp only [TsCall.execute]
        split
        · exact Copied.stopped started
        · next content _ =>
            rw [perform_bind, ensures_call]
            refine ⟨⟨rfl, started⟩, fun opening => ?_⟩
            obtain ⟨files, opened, same⟩ := @execute_openFile _ root shared entry opening
            rw [opened]
            split
            · rw [perform_bind, ensures_call]
              refine ⟨⟨rfl, started⟩, fun writing => ?_⟩
              cases failed : writing.failed with
              | true =>
                  simp only [TsCall.execute, failed]
                  exact Copied.stopped started
              | false =>
                  simp only [TsCall.execute, failed]
                  refine ih started (Shared.Matches.write ?_ content)
                  intro other differs isFunction
                  exact (same other differs).trans (isMatch other isFunction)
            · exact Copied.stopped started
      · exact ih started isMatch

theorem copyFromRepo_ensures (started : shared.refreshed = false) (isMatch : shared.Matches) :
    copyFromRepo.Ensures (TsCall.execute root) Refreshing Copied shared := by
  rw [copyFromRepo, perform_bind, ensures_call]
  refine ⟨⟨rfl, trivial⟩, fun finding => ?_⟩
  cases failed : finding.failed with
  | true =>
      simp only [TsCall.execute, failed]
      exact ⟨started, fun _ => isMatch⟩
  | false =>
      simp only [TsCall.execute, failed]
      refine ⟨⟨rfl, trivial⟩, fun listing => ?_⟩
      simp only [TsCall.execute]
      split
      · exact Copied.stopped started
      · exact copyFunctionFiles_ensures _ started isMatch

theorem syncRuntimeFunctionsDir_ensures (started : shared.refreshed = false)
    (unwritten : ∀ entry, shared.written entry = none) :
    syncRuntimeFunctionsDir.Ensures (TsCall.execute root) Refreshing (fun _ _ => True) shared := by
  rw [syncRuntimeFunctionsDir, perform_bind, ensures_call]
  refine ⟨⟨rfl, trivial⟩, fun listing => ?_⟩
  simp only [TsCall.execute]
  split
  · trivial
  · next entries listed =>
      refine ensures_bind.mpr ((removeFunctionFiles_ensures entries started unwritten ?_).imp
        (fun _ _ => id) ?_)
      · intro entry member _
        split at listed
        · cases listed
        · rw [← Option.some.inj listed]
          exact AList.mem_keys.mp member
      · rintro removed after ⟨stillStarted, isMatch⟩
        split
        · next isRemoved =>
            refine ensures_bind.mpr ((copyFromRepo_ensures stillStarted (isMatch isRemoved)).imp
              (fun _ _ => id) ?_)
            rintro copied after ⟨stillStarted, isMatch⟩
            split
            · next isCopied =>
                exact ⟨⟨rfl, stillStarted, isMatch isCopied⟩, fun _ => trivial⟩
            · trivial
        · trivial

theorem syncRepoAndReload_ensures :
    syncRepoAndReload.Ensures (TsCall.execute root) Refreshing (fun _ _ => True) shared := by
  rw [syncRepoAndReload, perform_bind, ensures_call]
  refine ⟨⟨rfl, trivial⟩, fun syncing => ?_⟩
  cases failed : syncing.failed with
  | true =>
      simp only [TsCall.execute, failed]
      trivial
  | false =>
      simp only [TsCall.execute, failed]
      exact syncRuntimeFunctionsDir_ensures rfl fun _ => rfl

theorem refreshes_ensures (rounds : Nat) :
    (refreshes rounds).Ensures (TsCall.execute root) Refreshing (fun _ _ => True) shared := by
  induction rounds generalizing shared with
  | zero => trivial
  | succ rounds ih =>
      exact ensures_bind.mpr (syncRepoAndReload_ensures.imp (fun _ _ => id) fun _ _ _ => ih)

/-! ### What refreshes and invocations leave to each other -/

/-- The same files, of the same refresh. -/
structure SameFiles (first second : Shared Code) : Prop where
  files : second.files = first.files
  written : second.written = first.written
  refreshed : second.refreshed = first.refreshed

/-- The same files, imported under the same version. -/
structure Unchanged (first second : Shared Code) : Prop extends SameFiles first second where
  moduleVersion : second.moduleVersion = first.moduleVersion

theorem SameFiles.matches (same : SameFiles shared other) (isMatch : shared.Matches) :
    other.Matches := by
  intro entry isFunction
  rw [same.files, same.written]
  exact isMatch entry isFunction

theorem SameFiles.keeps (same : SameFiles shared other) {call : TsCall Code}
    (keeps : call.Keeps shared) : call.Keeps other := by
  cases call with
  | rm entry => exact same.refreshed.trans keeps
  | openFile entry => exact same.refreshed.trans keeps
  | writeFile entry content => exact same.refreshed.trans keeps
  | clearModuleCache => exact ⟨same.refreshed.trans keeps.1, same.matches keeps.2⟩
  | _ => trivial

/-- Refreshes see only the files. -/
theorem SameFiles.execute (same : SameFiles shared other) {call : TsCall Code}
    (isRefresh : call.isRefresh = true) (circumstance : TsCall.Circumstance Code) :
    (call.execute root circumstance other).1 = (call.execute root circumstance shared).1 ∧
      SameFiles (call.execute root circumstance shared).2
        (call.execute root circumstance other).2 := by
  obtain ⟨files, modules, moduleVersion, imports, written, refreshed⟩ := shared
  obtain ⟨_, otherModules, otherVersion, otherImports, _, _⟩ := other
  obtain ⟨rfl, rfl, rfl⟩ := same
  obtain ⟨failed, entries, content⟩ := circumstance
  cases call <;> cases failed <;> cases content <;>
    first | exact ⟨rfl, rfl, rfl, rfl⟩ | cases isRefresh

/-- An import changes the registry only where it was empty, to what it found. -/
theorem Shared.importModule_spec (path : Path) (version : Nat) (elsewhere : Option Code) :
    shared.importModule root path version elsewhere = (shared.imports path version, shared) ∨
      ∃ module, shared.imports path version = none ∧
        (∀ entry, entryOf root path = some entry → shared.files.lookup entry = some module) ∧
        shared.importModule root path version elsewhere =
          (some module, { shared with
            imports := Function.update shared.imports path
              (Function.update (shared.imports path) version (some module)) }) := by
  unfold Shared.importModule
  cases registered : shared.imports path version with
  | some module => exact .inl rfl
  | none =>
      cases content : shared.contentAt root path elsewhere with
      | none => exact .inl rfl
      | some module =>
          refine .inr ⟨module, rfl, fun entry isEntry => ?_, rfl⟩
          simpa only [Shared.contentAt, isEntry] using content

theorem refreshing_of_same (call : TsCall Code) (shared other : Shared Code)
    (refreshing : Refreshing call shared) (same : SameFiles shared other) :
    Refreshing call other ∧ ∀ circumstance,
      (call.execute root circumstance other).1 = (call.execute root circumstance shared).1 ∧
        SameFiles (call.execute root circumstance shared).2
          (call.execute root circumstance other).2 :=
  ⟨⟨refreshing.1, same.keeps refreshing.2⟩, same.execute refreshing.1⟩

theorem Shared.importModule_unchanged (path : Path) (version : Nat) (elsewhere : Option Code) :
    Unchanged shared (shared.importModule root path version elsewhere).2 := by
  rcases @importModule_spec _ root shared path version elsewhere with
    same | ⟨module, -, -, imported⟩
  · rw [same]
    exact ⟨⟨rfl, rfl, rfl⟩, rfl⟩
  · rw [imported]
    exact ⟨⟨rfl, rfl, rfl⟩, rfl⟩

/-- Invocations leave the files as they are. -/
theorem unchanged_of_isInvocation {call : TsCall Code} (isInvocation : call.isRefresh = false)
    (circumstance : TsCall.Circumstance Code) :
    Unchanged shared (call.execute root circumstance shared).2 := by
  cases call with
  | stat path =>
      simp only [TsCall.execute]
      split <;> exact ⟨⟨rfl, rfl, rfl⟩, rfl⟩
  | importModule path version =>
      simp only [TsCall.execute]
      split
      · exact ⟨⟨rfl, rfl, rfl⟩, rfl⟩
      · exact Shared.importModule_unchanged path version _
  | getModule name => exact ⟨⟨rfl, rfl, rfl⟩, rfl⟩
  | readModuleVersion => exact ⟨⟨rfl, rfl, rfl⟩, rfl⟩
  | setModule name module => exact ⟨⟨rfl, rfl, rfl⟩, rfl⟩
  | handle name module => exact ⟨⟨rfl, rfl, rfl⟩, rfl⟩
  | _ => cases isInvocation

/-- Between two refreshes neither the files nor the version change. -/
theorem unchanged_of_refreshed {call : TsCall Code} (keeps : call.Keeps shared)
    (refreshed : shared.refreshed = true) (noSync : call ≠ .syncRepo)
    (circumstance : TsCall.Circumstance Code) :
    Unchanged shared (call.execute root circumstance shared).2 := by
  cases isRefresh : call.isRefresh with
  | false => exact unchanged_of_isInvocation isRefresh circumstance
  | true =>
      have busy : shared.refreshed ≠ false := by simp [refreshed]
      cases call with
      | syncRepo => exact absurd rfl noSync
      | rm entry => exact absurd keeps busy
      | openFile entry => exact absurd keeps busy
      | writeFile entry content => exact absurd keeps busy
      | clearModuleCache => exact absurd keeps.1 busy
      | readdir => exact ⟨⟨rfl, rfl, rfl⟩, rfl⟩
      | repoExists => exact ⟨⟨rfl, rfl, rfl⟩, rfl⟩
      | repoReaddir => exact ⟨⟨rfl, rfl, rfl⟩, rfl⟩
      | repoReadFile entry => exact ⟨⟨rfl, rfl, rfl⟩, rfl⟩
      | _ => cases isRefresh

/-! ### What invocations load -/

/-- The module was taken from the cache or imported. -/
def Loaded (root : Path) (name : String) (history : TsHistory Code) (module : Code) : Prop :=
  history = [⟨.getModule name, some module⟩] ∨
    ∃ version, ⟨.readModuleVersion, version⟩ ∈ history ∧
      ⟨.importModule (joinPath root (name ++ ".ts")) version, some module⟩ ∈ history

/-- The calls of an invocation by `name`, given what was answered to it. -/
def TsCall.Loads (root : Path) (name : String) (history : TsHistory Code) : TsCall Code → Prop
  | .getModule loaded => loaded = name ∧ history = []
  | .stat _ => True
  | .readModuleVersion => True
  | .importModule path version =>
      path = joinPath root (name ++ ".ts") ∧ ⟨.readModuleVersion, version⟩ ∈ history
  | .setModule loaded module => loaded = name ∧ ∃ version,
      ⟨.importModule (joinPath root (name ++ ".ts")) version, some module⟩ ∈ history ∧
        importedVersion history = some version
  | .handle loaded module => loaded = name ∧ Loaded root name history module
  | _ => False

theorem loadModule_along (name : String) :
    (loadModule root name).Along (fun history (call : TsCall Code) => call.Loads root name history)
      (fun history loaded => ∀ module ∈ loaded, Loaded root name history module) [] := by
  refine ⟨⟨rfl, rfl⟩, fun cached => ?_⟩
  cases cached with
  | some cached =>
      rintro module ⟨⟩
      exact .inl rfl
  | none =>
      apply And.intro trivial
      intro found
      cases found with
      | false => exact nofun
      | true =>
          refine ⟨trivial, fun version => ⟨⟨rfl, by simp⟩, fun imported => ?_⟩⟩
          cases imported with
          | none => exact nofun
          | some imported =>
              refine ⟨⟨rfl, version, by simp, rfl⟩, fun stored => ?_⟩
              rintro module ⟨⟩
              exact .inr ⟨version, by simp, by simp⟩

theorem invokeModule_along (exportsHandle : Code → Bool) (name : String) :
    (invokeModule root exportsHandle name).Along (fun history call => call.Loads root name history)
      (fun _ _ => True) [] := by
  refine along_bind.mpr ((loadModule_along name).imp (fun _ _ => id) ?_)
  intro history loaded isLoaded
  cases loaded with
  | none => trivial
  | some module =>
      dsimp only
      split
      · exact ⟨⟨rfl, isLoaded module rfl⟩, fun _ => trivial⟩
      · trivial

theorem TsCall.Loads.isInvocation {name : String} {history : TsHistory Code} {call : TsCall Code}
    (loads : call.Loads root name history) : call.isRefresh = false := by
  cases call <;> first | rfl | cases loads

theorem keeps_of_isInvocation {call : TsCall Code} (isInvocation : call.isRefresh = false) :
    call.Keeps shared := by
  cases call <;> trivial

/-! ### What imports have registered -/

/-- Nothing that was registered is lost, and versions only grow. -/
structure Grows (before after : Shared Code) : Prop where
  imports : ∀ path version module,
    before.imports path version = some module → after.imports path version = some module
  moduleVersion : before.moduleVersion ≤ after.moduleVersion

theorem Grows.refl (shared : Shared Code) : Grows shared shared :=
  ⟨fun _ _ _ => id, le_rfl⟩

theorem Grows.trans {first second third : Shared Code} (early : Grows first second)
    (late : Grows second third) : Grows first third :=
  ⟨fun path version module registered =>
    late.imports path version module (early.imports path version module registered),
    early.moduleVersion.trans late.moduleVersion⟩

theorem Grows.import_ {path : Path} {version : Nat} (absent : shared.imports path version = none)
    (module : Code) :
    Grows shared { shared with
      imports := Function.update shared.imports path
        (Function.update (shared.imports path) version (some module)) } where
  imports otherPath otherVersion other registered := by
    by_cases samePath : otherPath = path
    · subst samePath
      by_cases sameVersion : otherVersion = version
      · rw [sameVersion, absent] at registered
        cases registered
      · simpa [sameVersion] using registered
    · simpa [samePath] using registered
  moduleVersion := le_rfl

theorem grows_execute (call : TsCall Code) (circumstance : TsCall.Circumstance Code) :
    Grows shared (call.execute root circumstance shared).2 := by
  have unchanged : ∀ {after : Shared Code}, after.imports = shared.imports →
      shared.moduleVersion ≤ after.moduleVersion → Grows shared after := by
    intro after same later
    exact ⟨fun path version module registered => by rw [same, registered], later⟩
  cases call with
  | importModule path version =>
      simp only [TsCall.execute]
      split
      · exact .refl shared
      · rcases @Shared.importModule_spec _ root shared path version circumstance.content with same | ⟨module, absent, -, imported⟩
        · rw [same]
          exact .refl shared
        · rw [imported]
          exact .import_ absent module
  | stat path =>
      simp only [TsCall.execute]
      split <;> exact .refl shared
  | rm entry =>
      simp only [TsCall.execute]
      split <;> exact unchanged rfl le_rfl
  | openFile entry =>
      simp only [TsCall.execute]
      split <;> exact unchanged rfl le_rfl
  | writeFile entry content =>
      simp only [TsCall.execute]
      split <;> exact unchanged rfl le_rfl
  | clearModuleCache => exact unchanged rfl (Nat.le_succ _)
  | _ => exact unchanged rfl le_rfl

/-- What a response says about the registry and the version from then on. -/
def TsCall.Answers (shared : Shared Code) : (call : TsCall Code) → call.Response → Prop
  | .readModuleVersion, version => version ≤ shared.moduleVersion
  | .importModule path version, imported => ∀ module ∈ imported,
      shared.imports path version = some module
  | _, _ => True

theorem TsCall.Answers.grows {before after : Shared Code} {call : TsCall Code}
    {response : call.Response} (answers : call.Answers before response)
    (grows : Grows before after) : call.Answers after response := by
  cases call with
  | readModuleVersion => exact le_trans answers grows.moduleVersion
  | importModule path version =>
      exact fun module member => grows.imports path version module (answers module member)
  | _ => trivial

theorem answers_execute (call : TsCall Code) (circumstance : TsCall.Circumstance Code) :
    call.Answers (call.execute root circumstance shared).2
      (call.execute root circumstance shared).1 := by
  cases call with
  | readModuleVersion => exact le_rfl
  | importModule path version =>
      simp only [TsCall.execute]
      split
      · exact nofun
      · rcases @Shared.importModule_spec _ root shared path version circumstance.content with same | ⟨module, -, -, imported⟩
        · rw [same]
          exact fun module => id
        · rw [imported]
          rintro other ⟨⟩
          simp
  | _ => trivial

/-! ### The cache and the registry after a refresh -/

/-- After a refresh has completed, the function files are as it wrote them, and
what the cache holds or an import under the present version finds is what the
files hold. -/
structure Reloaded (root : Path) (shared : Shared Code) : Prop where
  registered : ∀ path version module,
    shared.imports path version = some module → version ≤ shared.moduleVersion
  isMatch : shared.refreshed = true → shared.Matches
  current : shared.refreshed = true → ∀ path entry module, entryOf root path = some entry →
    shared.imports path shared.moduleVersion = some module →
      shared.files.lookup entry = some module
  cached : shared.refreshed = true → ∀ name module, shared.modules name = some module →
    ∀ entry ∈ functionFile root name, shared.files.lookup entry = some module

/-- Calls that keep what a refresh has left. -/
def TsCall.Sound (root : Path) (shared : Shared Code) (call : TsCall Code) : Prop :=
  call.Keeps shared ∧
    match call with
    | .importModule _ version => version ≤ shared.moduleVersion
    | .setModule name module => shared.refreshed = true →
        ∀ entry ∈ functionFile root name, shared.files.lookup entry = some module
    | _ => True

theorem Reloaded.start (exportsHandle : Code → Bool) (name : Nat → String) (rounds : Nat)
    (files : AList fun _ : String => Code) :
    Reloaded root (start root exportsHandle name rounds files).shared where
  registered := nofun
  isMatch := nofun
  current := nofun
  cached := nofun

/-- An import under a version that was read reads the files as they are. -/
theorem Reloaded.import_ {path : Path} {version : Nat} {module : Code}
    (reloaded : Reloaded root shared) (known : version ≤ shared.moduleVersion)
    (found : ∀ entry, entryOf root path = some entry → shared.files.lookup entry = some module) :
    Reloaded root { shared with
      imports := Function.update shared.imports path
        (Function.update (shared.imports path) version (some module)) } where
  registered otherPath otherVersion other registered := by
    by_cases same : otherPath = path ∧ otherVersion = version
    · rw [same.2]
      exact known
    · apply reloaded.registered otherPath otherVersion other
      by_cases samePath : otherPath = path
      · subst samePath
        have otherVersionEq : otherVersion ≠ version := fun sameVersion => same ⟨rfl, sameVersion⟩
        simpa [otherVersionEq] using registered
      · simpa [samePath] using registered
  isMatch := reloaded.isMatch
  current refreshed otherPath entry other isEntry registered := by
    by_cases samePath : otherPath = path
    · subst samePath
      by_cases sameVersion : shared.moduleVersion = version
      · have same : module = other := by simpa [sameVersion] using registered
        rw [← same]
        exact found entry isEntry
      · apply reloaded.current refreshed otherPath entry other isEntry
        simpa [sameVersion] using registered
    · apply reloaded.current refreshed otherPath entry other isEntry
      simpa [samePath] using registered
  cached := reloaded.cached

theorem Reloaded.step {call : TsCall Code} (reloaded : Reloaded root shared)
    (sound : call.Sound root shared) (circumstance : TsCall.Circumstance Code) :
    Reloaded root (call.execute root circumstance shared).2 := by
  have unfinished : ∀ {after : Shared Code}, after.imports = shared.imports →
      after.moduleVersion = shared.moduleVersion → after.refreshed = false →
      Reloaded root after := by
    intro after sameImports sameVersion started
    refine ⟨?_, ?_, ?_, ?_⟩
    · rw [sameImports, sameVersion]
      exact reloaded.registered
    · simp [started]
    · simp [started]
    · simp [started]
  cases call with
  | importModule path version =>
      simp only [TsCall.execute]
      split
      · exact reloaded
      · rcases @Shared.importModule_spec _ root shared path version circumstance.content with same | ⟨module, -, found, imported⟩
        · rw [same]
          exact reloaded
        · rw [imported]
          exact reloaded.import_ sound.2 found
  | stat path =>
      simp only [TsCall.execute]
      split <;> exact reloaded
  | rm entry =>
      simp only [TsCall.execute]
      split
      · exact reloaded
      · exact unfinished rfl rfl sound.1
  | openFile entry =>
      simp only [TsCall.execute]
      split
      · exact reloaded
      · exact unfinished rfl rfl sound.1
  | writeFile entry content =>
      simp only [TsCall.execute]
      split
      · exact reloaded
      · exact unfinished rfl rfl sound.1
  | syncRepo => exact unfinished rfl rfl rfl
  | setModule name module =>
      exact
        { registered := reloaded.registered
          isMatch := reloaded.isMatch
          current := reloaded.current
          cached := by
            intro refreshed other cachedModule isCached entry isEntry
            have isCached : Function.update shared.modules name (some module) other =
              some cachedModule := isCached
            by_cases same : other = name
            · subst same
              rw [Function.update_self] at isCached
              rw [← Option.some.inj isCached]
              exact sound.2 refreshed entry isEntry
            · rw [Function.update_of_ne same] at isCached
              exact reloaded.cached refreshed other cachedModule isCached entry isEntry }
  | clearModuleCache =>
      exact
        { registered := fun path version module registered =>
            (reloaded.registered path version module registered).trans (Nat.le_succ _)
          isMatch := fun _ => sound.1.2
          current := fun _ path entry module _ registered =>
            absurd (reloaded.registered path _ module registered) (Nat.not_succ_le_self _)
          cached := nofun }
  | _ => exact reloaded

/-! ### Runs -/

section Runs

variable {exportsHandle : Code → Bool} {name : Nat → String} {rounds : Nat}
variable {files : AList fun _ : String => Code}
variable {events early late : List (TsEvent Code)} {event : TsEvent Code} {last : Runtime Code}

/-- Every call of an invocation is as its history says. -/
theorem loads_of_ran
    (ran : Processes.Ran (step root) (start root exportsHandle name rounds files)
      (early ++ event :: late) last) {index : Nat} (pidEq : event.pid = some index) :
    event.request.Loads root (name index) (own event.pid early) := by
  have along : ((start root exportsHandle name rounds files).program event.pid).Along
      (fun history call => call.Loads root (name index) history) (fun _ _ => True) [] := by
    rw [pidEq]
    exact invokeModule_along exportsHandle (name index)
  exact ran.assertion along

theorem refreshing_of_ran
    (ran : Processes.Ran (step root) (start root exportsHandle name rounds files) events last) :
    (last.program none).Ensures (TsCall.execute root) Refreshing (fun _ _ => True)
      last.shared := by
  refine ran.induction (motive := fun _ processes => (processes.program none).Ensures
    (TsCall.execute root) Refreshing (fun _ _ => True) processes.shared)
    (refreshes_ensures rounds) ?_
  intro early event late processes next split ranEarly ensures program before executed
  obtain ⟨circumstance, executed⟩ := executed
  have executed := Option.some.inj executed
  rw [before] at executed
  show (Function.update processes.program event.pid (next event.response) none).Ensures
    (TsCall.execute root) Refreshing (fun _ _ => True) event.after
  cases pidEq : event.pid with
  | none =>
      rw [pidEq] at program
      rw [program] at ensures
      have later := ensures.2 circumstance
      rw [executed] at later
      rwa [Function.update_self]
  | some index =>
      have loads := loads_of_ran (split ▸ ran) pidEq
      have same : SameFiles processes.shared event.after := by
        have unchanged := @unchanged_of_isInvocation _ root processes.shared _ loads.isInvocation
          circumstance
        rw [executed] at unchanged
        exact unchanged.toSameFiles
      rw [Function.update_of_ne (Option.some_ne_none index).symm]
      exact ensures.of_related refreshing_of_same (fun _ _ _ _ _ => trivial) same

/-- Files and cache change at an event only as they may. -/
theorem keeps_of_ran
    (ran : Processes.Ran (step root) (start root exportsHandle name rounds files)
      (early ++ event :: late) last) : event.request.Keeps event.before := by
  cases pidEq : event.pid with
  | none =>
      obtain ⟨middle, ranEarly, next, program, before, -⟩ := Processes.ran_append.mp ran
      have ensures := refreshing_of_ran ranEarly
      rw [← pidEq, program] at ensures
      rw [before]
      exact ensures.1.2
  | some index => exact keeps_of_isInvocation (loads_of_ran ran pidEq).isInvocation

theorem exists_index_of_ran
    (ran : Processes.Ran (step root) (start root exportsHandle name rounds files)
      (early ++ event :: late) last) (isInvocation : event.request.isRefresh = false) :
    ∃ index, event.pid = some index := by
  cases pidEq : event.pid with
  | none =>
      obtain ⟨middle, ranEarly, next, program, -⟩ := Processes.ran_append.mp ran
      have ensures := refreshing_of_ran ranEarly
      rw [← pidEq, program] at ensures
      have isRefresh := ensures.1.1
      rw [isInvocation] at isRefresh
      cases isRefresh
  | some index => exact ⟨index, rfl⟩

/-- What was answered remains true. -/
theorem answers_of_ran
    (ran : Processes.Ran (step root) (start root exportsHandle name rounds files) events last) :
    ∀ event ∈ events, event.request.Answers last.shared event.response := by
  refine ran.induction (motive := fun events processes =>
    ∀ event ∈ events, event.request.Answers processes.shared event.response) nofun ?_
  intro early event late processes next split ranEarly answers program before executed
  obtain ⟨circumstance, executed⟩ := executed
  have executed := Option.some.inj executed
  rw [before] at executed
  have grows := @grows_execute _ root processes.shared event.request circumstance
  have answered := @answers_execute _ root processes.shared event.request circumstance
  rw [executed] at grows answered
  intro other member
  rcases List.mem_append.mp member with old | new
  · exact (answers other old).grows grows
  · obtain rfl := List.mem_singleton.mp new
    exact answered

theorem answers_of_mem_own
    (ran : Processes.Ran (step root) (start root exportsHandle name rounds files) events last)
    {pid : Pid} {answered : Answered (TsCall Code) TsCall.Response}
    (member : answered ∈ own pid events) : answered.1.Answers last.shared answered.2 := by
  obtain ⟨event, eventMember, -, rfl⟩ := mem_own.mp member
  exact answers_of_ran ran event eventMember

theorem mem_functionFile {loaded entry : String} :
    entry ∈ functionFile root loaded ↔
      entryOf root (joinPath root (loaded ++ ".ts")) = some entry ∧ isFunctionFile entry = true :=
  Option.filter_eq_some_iff

theorem sound_of_ran {processes : Runtime Code}
    (ran : Processes.Ran (step root) (start root exportsHandle name rounds files)
      (early ++ event :: late) last)
    (ranEarly : Processes.Ran (step root) (start root exportsHandle name rounds files) early
      processes)
    (before : event.before = processes.shared) (reloaded : Reloaded root processes.shared)
    (stores : StoresCurrent root early event) : event.request.Sound root processes.shared := by
  apply And.intro (before ▸ keeps_of_ran ran)
  obtain ⟨pid, request, response, shared, after⟩ := event
  obtain rfl : shared = processes.shared := before
  cases request with
  | importModule path version =>
      obtain ⟨index, pidEq⟩ := exists_index_of_ran ran rfl
      obtain ⟨-, isRead⟩ := loads_of_ran ran pidEq
      exact answers_of_mem_own ranEarly isRead
  | setModule loaded module =>
      intro refreshed entry isEntry
      obtain ⟨index, pidEq⟩ := exists_index_of_ran ran rfl
      obtain ⟨rfl, version, isImported, versionEq⟩ := loads_of_ran ran pidEq
      by_cases present : version = processes.shared.moduleVersion
      · subst present
        have registered := answers_of_mem_own ranEarly isImported module rfl
        exact reloaded.current refreshed _ entry module (mem_functionFile.mp isEntry).1 registered
      · refine stores refreshed ?_ entry isEntry
        show importedVersion (own pid early) ≠ _
        rw [versionEq]
        exact fun same => present (Option.some.inj same)
  | _ => trivial

theorem reloaded_of_ran
    (ran : Processes.Ran (step root) (start root exportsHandle name rounds files) events last)
    (stores : AtEvery (StoresCurrent root) events) : Reloaded root last.shared := by
  refine ran.induction (motive := fun _ processes => Reloaded root processes.shared)
    (Reloaded.start exportsHandle name rounds files) ?_
  intro early event late processes next split ranEarly reloaded program before executed
  obtain ⟨circumstance, executed⟩ := executed
  have executed := Option.some.inj executed
  have sound := sound_of_ran (split ▸ ran) ranEarly before reloaded (stores early event late split)
  have after := reloaded.step sound circumstance
  rw [before] at executed
  rwa [executed] at after

/-! ### From one refresh to the next -/

theorem unchanged_of_ran {starting : TsEvent Code} {between : List (TsEvent Code)}
    (ran : Processes.Ran (step root) (start root exportsHandle name rounds files)
      (early ++ starting :: (between ++ event :: late)) last)
    (refreshed : starting.before.refreshed = true)
    (noSync : ∀ other ∈ starting :: between, other.request ≠ .syncRepo) :
    Unchanged starting.before event.before := by
  have linked : Linked starting.before (starting :: between ++ event :: late) := by
    have whole := (linked_append.mp ran.linked).2
    rwa [← ran.linked.before_eq] at whole
  refine linked.run_induction_before (motive := fun _ shared => Unchanged starting.before shared)
    rfl ⟨⟨rfl, rfl, rfl⟩, rfl⟩ ?_
  intro first middle rest split unchanged
  have splitRun : early ++ starting :: (between ++ event :: late) =
      (early ++ first) ++ middle :: (rest ++ event :: late) := by
    rw [← List.cons_append, split]
    simp
  rw [splitRun] at ran
  obtain ⟨circumstance, executed⟩ := ran.executed (show middle ∈ _ by simp)
  have executed := Option.some.inj executed
  have kept := @unchanged_of_refreshed _ root _ _ (keeps_of_ran ran)
    (unchanged.refreshed.trans refreshed) (noSync middle (by simp [split])) circumstance
  rw [executed] at kept
  exact ⟨⟨kept.files.trans unchanged.files, kept.written.trans unchanged.written,
    kept.refreshed.trans unchanged.refreshed⟩, kept.moduleVersion.trans unchanged.moduleVersion⟩

theorem reloaded_before
    (ran : Processes.Ran (step root) (start root exportsHandle name rounds files)
      (early ++ event :: late) last)
    (stores : AtEvery (StoresCurrent root) (early ++ event :: late)) :
    Reloaded root event.before := by
  obtain ⟨middle, ranEarly, next, -, before, -⟩ := Processes.ran_append.mp ran
  rw [before]
  exact reloaded_of_ran ranEarly stores.left

theorem answers_before
    (ran : Processes.Ran (step root) (start root exportsHandle name rounds files)
      (early ++ event :: late) last) {pid : Pid} {answered : Answered (TsCall Code) TsCall.Response}
    (member : answered ∈ own pid early) : answered.1.Answers event.before answered.2 := by
  obtain ⟨middle, ranEarly, next, -, before, -⟩ := Processes.ran_append.mp ran
  rw [before]
  exact answers_of_mem_own ranEarly member

/-- An invocation that starts after a refresh reads the version of the refresh. -/
theorem version_of_ran {starting : TsEvent Code} {between : List (TsEvent Code)} {loaded : String}
    {version : Nat}
    (ran : Processes.Ran (step root) (start root exportsHandle name rounds files)
      (early ++ starting :: (between ++ late)) last)
    (startCall : starting.request = .getModule loaded) (refreshed : starting.before.refreshed = true)
    (noSync : ∀ other ∈ between, other.request ≠ .syncRepo)
    (isRead : ⟨.readModuleVersion, version⟩ ∈ starting.answered :: own starting.pid between) :
    version = starting.before.moduleVersion := by
  rcases List.mem_cons.mp isRead with atStart | later
  · have requestEq := congrArg Sigma.fst atStart
    have impossible : TsCall.readModuleVersion = .getModule loaded := requestEq.trans startCall
    cases impossible
  · obtain ⟨reading, member, -, answeredEq⟩ := mem_own.mp later
    obtain ⟨first, rest, rfl⟩ := List.append_of_mem member
    rw [List.append_assoc, List.cons_append] at ran
    have unchanged := unchanged_of_ran ran refreshed (List.forall_mem_cons.mpr
      ⟨by simp [startCall], fun other otherMember => noSync other (by simp [otherMember])⟩)
    obtain ⟨circumstance, executed⟩ :=
      ran.executed_of_answered_eq (show reading ∈ _ by simp) answeredEq
    have isVersion : reading.before.moduleVersion = version :=
      congrArg Prod.fst (Option.some.inj executed)
    rw [← isVersion, unchanged.moduleVersion]

/-- When no module that was imported before a refresh is stored after it, an
invocation that starts after a refresh runs what the refresh wrote. -/
theorem runsWritten_of_storesCurrent
    (ran : Processes.Ran (step root) (start root exportsHandle name rounds files) events last)
    (stores : AtEvery (StoresCurrent root) events) : RunsWritten root events := by
  rintro early starting between running late rfl loaded module entry startCall refreshed noSync
    samePid runCall isFile
  have ⟨isEntry, isFunction⟩ := mem_functionFile.mp isFile
  have reloaded := reloaded_before ran stores
  have written := reloaded.isMatch refreshed entry isFunction
  have split : early ++ starting :: (between ++ running :: late) =
      (early ++ starting :: between) ++ running :: late := by simp
  have ranRunning := ran
  have storesRunning := stores
  rw [split] at ranRunning storesRunning
  obtain ⟨index, pidEq⟩ := exists_index_of_ran ran (show _ = _ by rw [startCall]; rfl)
  have startLoads := loads_of_ran ran pidEq
  rw [startCall] at startLoads
  have runLoads := loads_of_ran ranRunning (samePid.trans pidEq)
  rw [runCall] at runLoads
  -- The invocation has made no call before it starts.
  have history : own running.pid (early ++ starting :: between) =
      starting.answered :: own starting.pid between := by
    rw [samePid, own_append, own_cons_self, startLoads.2, List.nil_append]
  obtain ⟨rfl, cached | ⟨version, isRead, isImported⟩⟩ := runLoads
  · rw [history] at cached
    obtain ⟨circumstance, executed⟩ :=
      ran.executed_of_answered_eq (show starting ∈ _ by simp) (List.cons.inj cached).1
    have isCached : starting.before.modules (name index) = some module :=
      congrArg Prod.fst (Option.some.inj executed)
    rw [← written]
    exact reloaded.cached refreshed _ module isCached entry isFile
  · have unchanged := unchanged_of_ran ran refreshed
      (List.forall_mem_cons.mpr ⟨by simp [startCall], noSync⟩)
    have versionEq := version_of_ran ran startCall refreshed noSync (history ▸ isRead)
    subst versionEq
    have registered := answers_before ranRunning isImported module rfl
    rw [← unchanged.moduleVersion] at registered
    rw [← written, ← unchanged.files]
    exact (reloaded_before ranRunning storesRunning).current (unchanged.refreshed.trans refreshed)
      _ entry module isEntry registered

end Runs

/-! ### An invocation across a refresh -/

/-- The functions directory of a runtime. -/
def runtimeRoot : Path :=
  ["app", "pkg", "functions"]

/-- A runtime that refreshes twice. -/
def twiceRefreshed : Runtime String :=
  start runtimeRoot (fun _ => true) (fun _ => "f") 2 ∅

/-- A call that does not fail. -/
def succeeds : TsCall.Circumstance String := {}

/-- The steps of a refresh that writes `f.ts`, after removing some files. -/
def refreshSteps (removals : Nat) (written : String) : List (Pid × TsCall.Circumstance String) :=
  (List.replicate (3 + removals) succeeds ++
    [{ entries := ["f.ts"] }, { content := some written }, succeeds, succeeds, succeeds]).map
      fun circumstance => (none, circumstance)

/-- Some steps of an invocation. -/
def invocationSteps (index count : Nat) : List (Pid × TsCall.Circumstance String) :=
  List.replicate count (some index, succeeds)

/-- The first invocation has imported the module when the second refresh
starts, and stores it when that refresh has completed. -/
def lateStore : List (TsEvent String) :=
  (twiceRefreshed.run (step runtimeRoot) (refreshSteps 0 "1" ++ invocationSteps 0 4 ++
    refreshSteps 1 "2" ++ invocationSteps 0 1 ++ invocationSteps 1 2)).1

@[simp]
theorem length_lateStore : lateStore.length = 24 := by
  decide +kernel

theorem lateStore_runs_old :
    ¬ ∀ (root : Path) (exportsHandle : String → Bool) (name : Nat → String) (rounds : Nat)
        (files : AList fun _ : String => String) (events : List (TsEvent String))
        (last : Runtime String),
      Processes.Ran (step root) (start root exportsHandle name rounds files) events last →
        RunsWritten root events := by
  intro always
  have runs : RunsWritten runtimeRoot lateStore :=
    always _ _ _ _ _ _ _ (Processes.ran_run twiceRefreshed _)
  have split : lateStore = lateStore.take 22 ++ lateStore[22] :: ([] ++ lateStore[23] ::
      lateStore.drop 24) := by
    rw [List.nil_append, List.getElem_cons_drop, List.getElem_cons_drop, List.take_append_drop]
  have ranNew := runs _ _ _ _ _ split "f" "1" "f.ts" (by decide +kernel) (by decide +kernel) nofun
    (by decide +kernel) (by decide +kernel) (by decide +kernel)
  have wroteNew : lateStore[22].before.written "f.ts" = some "2" := by decide +kernel
  rw [wroteNew] at ranNew
  exact absurd ranNew (by decide)

/-- Each invocation ends before the next refresh. -/
def storesInTime : List (TsEvent String) :=
  (twiceRefreshed.run (step runtimeRoot) (refreshSteps 0 "1" ++ invocationSteps 0 6 ++
    refreshSteps 1 "2" ++ invocationSteps 1 6)).1

theorem runsWritten_storesInTime :
    RunsWritten runtimeRoot storesInTime ∧
      storesInTime.getLast?.map (·.request) = some (.handle "f" "2") :=
  ⟨runsWritten_of_storesCurrent (Processes.ran_run twiceRefreshed _) (by decide +kernel),
    by decide +kernel⟩

end TsRuntime

end Litefunctions
