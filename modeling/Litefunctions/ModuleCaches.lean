import Litefunctions.InterleavedPrograms
import Litefunctions.SeparatedText
import Mathlib.Data.List.AList

/-!
# The module cache of the TypeScript runtime

The runtime keeps the modules of its functions in a cache.  A refresh replaces
the function files, empties the cache and raises the version under which
modules are imported.  Refreshes follow each other, since one loop makes them,
while any number of invocations run between their steps.  Every step at which
the event loop can turn to something else is a call of its own here.
-/

namespace Litefunctions

namespace TsRuntime

/-- The segments of an absolute path. -/
abbrev Path : Type := List String

/-- `path.join` of an absolute path and a text. -/
def joinPath (root : Path) (relative : String) : Path :=
  (SeparatedText.pieces '/' relative).foldl
    (fun path segment =>
      if segment = "" ∨ segment = "." then
        path
      else if segment = ".." then
        path.dropLast
      else
        path ++ [segment])
    root

/-- The name of a file that is directly in the directory `root`. -/
def entryOf (root path : Path) : Option String :=
  if path.dropLast = root then path.getLast? else none

/-- `isFunctionFile`: the name matches `^[A-Za-z0-9_-]+\.ts$` and does not end
in `.d.ts`. -/
def isFunctionFile (name : String) : Bool :=
  let stem := name.toList.take (name.length - 3)
  ".ts".toList.isSuffixOf name.toList && !stem.isEmpty &&
    stem.all (fun char => char.isAlphanum || char = '_' || char = '-') &&
    !".d.ts".toList.isSuffixOf name.toList

variable {Code : Type}

/-- What the invocations and the refreshes share.  Modules are told apart by
the code from which they were loaded.  `written` and `refreshed` record the
files that the latest refresh wrote and whether it has completed since. -/
structure Shared (Code : Type) where
  files : AList fun _ : String => Code
  modules : String → Option Code
  moduleVersion : Nat
  imports : Path → Nat → Option Code
  written : String → Option Code
  refreshed : Bool

/-- The steps of invocations and refreshes.  The clone and the functions of
the runtime are two directories, so their calls have different names. -/
inductive TsCall (Code : Type) where
  | getModule (name : String)
  | stat (path : Path)
  | readModuleVersion
  | importModule (path : Path) (version : Nat)
  | setModule (name : String) (module : Code)
  | handle (name : String) (module : Code)
  | syncRepo
  | readdir
  | rm (entry : String)
  | repoExists
  | repoReaddir
  | repoReadFile (entry : String)
  | openFile (entry : String)
  | writeFile (entry : String) (content : Code)
  | clearModuleCache
deriving DecidableEq

namespace TsCall

/-- Responses; `false` and `none` stand for an error, or for what is absent. -/
abbrev Response : TsCall Code → Type
  | getModule _ => Option Code
  | stat _ => Bool
  | readModuleVersion => Nat
  | importModule _ _ => Option Code
  | setModule _ _ => Unit
  | handle _ _ => Unit
  | syncRepo => Bool
  | readdir => Option (List String)
  | rm _ => Bool
  | repoExists => Bool
  | repoReaddir => Option (List String)
  | repoReadFile _ => Option Code
  | openFile _ => Bool
  | writeFile _ _ => Bool
  | clearModuleCache => Unit

/-- What is open at a call: whether it fails, the entries of the clone, and
the content of a file that is not one of the runtime's. -/
structure Circumstance (Code : Type) where
  failed : Bool := false
  entries : List String := []
  content : Option Code := none

end TsCall

namespace Shared

/-- The content of a file. -/
def contentAt (root path : Path) (elsewhere : Option Code) (shared : Shared Code) : Option Code :=
  match entryOf root path with
  | some entry => shared.files.lookup entry
  | none => elsewhere

/-- An import takes what is registered under its path and version; otherwise
it reads the file and registers what it finds. -/
def importModule (root path : Path) (version : Nat) (elsewhere : Option Code)
    (shared : Shared Code) : Option Code × Shared Code :=
  match shared.imports path version with
  | some module => (some module, shared)
  | none =>
      match shared.contentAt root path elsewhere with
      | none => (none, shared)
      | some module =>
          (some module,
            { shared with
              imports := Function.update shared.imports path
                (Function.update (shared.imports path) version (some module)) })

end Shared

open TsCall in
/-- One step.  A file that is opened for writing holds part of its content for
a while. -/
def TsCall.execute (root : Path) :
    (call : TsCall Code) → Circumstance Code → Shared Code → call.Response × Shared Code
  | getModule name, _, shared => (shared.modules name, shared)
  | stat path, circumstance, shared =>
      match entryOf root path with
      | some entry => ((shared.files.lookup entry).isSome && !circumstance.failed, shared)
      | none => (!circumstance.failed, shared)
  | readModuleVersion, _, shared => (shared.moduleVersion, shared)
  | importModule path version, circumstance, shared =>
      if circumstance.failed then
        (none, shared)
      else
        shared.importModule root path version circumstance.content
  | setModule name module, _, shared =>
      ((), { shared with modules := Function.update shared.modules name (some module) })
  | handle _ _, _, shared => ((), shared)
  | syncRepo, circumstance, shared =>
      (!circumstance.failed, { shared with written := fun _ => none, refreshed := false })
  | readdir, circumstance, shared =>
      (if circumstance.failed then none else some shared.files.keys, shared)
  | rm entry, circumstance, shared =>
      if circumstance.failed then
        (false, shared)
      else
        (true, { shared with files := shared.files.erase entry })
  | repoExists, circumstance, shared => (!circumstance.failed, shared)
  | repoReaddir, circumstance, shared =>
      (if circumstance.failed then none else some circumstance.entries, shared)
  | repoReadFile _, circumstance, shared => (circumstance.content, shared)
  | openFile entry, circumstance, shared =>
      match circumstance.content with
      | none => (!circumstance.failed, shared)
      | some part =>
          (!circumstance.failed, { shared with files := shared.files.insert entry part })
  | writeFile entry content, circumstance, shared =>
      if circumstance.failed then
        (false, shared)
      else
        (true,
          { shared with
            files := shared.files.insert entry content
            written := Function.update shared.written entry (some content) })
  | clearModuleCache, _, shared =>
      ((),
        { shared with
          modules := fun _ => none
          moduleVersion := shared.moduleVersion + 1
          refreshed := true })

/-- Invocations and refreshes as programs; an error ends an invocation. -/
abbrev TsProgram (Code Result : Type) : Type := Program (TsCall Code) TsCall.Response Result

namespace TsProgram

open Program

abbrev getModule (name : String) : TsProgram Code (Option Code) :=
  perform (TsCall.getModule name)

abbrev stat (path : Path) : TsProgram Code Bool :=
  perform (TsCall.stat path)

abbrev readModuleVersion : TsProgram Code Nat :=
  perform TsCall.readModuleVersion

abbrev importModule (path : Path) (version : Nat) : TsProgram Code (Option Code) :=
  perform (TsCall.importModule path version)

abbrev setModule (name : String) (module : Code) : TsProgram Code Unit :=
  perform (TsCall.setModule name module)

abbrev handle (name : String) (module : Code) : TsProgram Code Unit :=
  perform (TsCall.handle name module)

abbrev syncRepo : TsProgram Code Bool :=
  perform TsCall.syncRepo

abbrev readdir : TsProgram Code (Option (List String)) :=
  perform TsCall.readdir

abbrev rm (entry : String) : TsProgram Code Bool :=
  perform (TsCall.rm entry)

abbrev repoExists : TsProgram Code Bool :=
  perform TsCall.repoExists

abbrev repoReaddir : TsProgram Code (Option (List String)) :=
  perform TsCall.repoReaddir

abbrev repoReadFile (entry : String) : TsProgram Code (Option Code) :=
  perform (TsCall.repoReadFile entry)

abbrev openFile (entry : String) : TsProgram Code Bool :=
  perform (TsCall.openFile entry)

abbrev writeFile (entry : String) (content : Code) : TsProgram Code Bool :=
  perform (TsCall.writeFile entry content)

abbrev clearModuleCache : TsProgram Code Unit :=
  perform TsCall.clearModuleCache

end TsProgram

open TsProgram

/-! ### Invocations -/

/-- `resolveFunctionFile`. -/
def resolveFunctionFile (root : Path) (name : String) : TsProgram Code (Option Path) := do
  let path := joinPath root (name ++ ".ts")
  if ← stat path then
    return some path
  else
    return none

/-- `loadModule`. -/
def loadModule (root : Path) (name : String) : TsProgram Code (Option Code) := do
  match ← getModule name with
  | some cached => return some cached
  | none =>
      match ← resolveFunctionFile root name with
      | none => return none
      | some filePath =>
          let moduleVersion ← readModuleVersion
          match ← importModule filePath moduleVersion with
          | none => return none
          | some module =>
              setModule name module
              return some module

/-- `invokeModule`, up to the run of the module's `handle`. -/
def invokeModule (root : Path) (exportsHandle : Code → Bool) (name : String) :
    TsProgram Code Unit := do
  match ← loadModule root name with
  | none => return ()
  | some module =>
      if exportsHandle module then
        handle name module
      else
        return ()

/-! ### Refreshes -/

/-- The loop over the runtime's directory in `syncRuntimeFunctionsDir`; the
result is `false` after an error. -/
def removeFunctionFiles : List String → TsProgram Code Bool
  | [] => return true
  | entry :: entries => do
      if isFunctionFile entry then
        if ← rm entry then
          removeFunctionFiles entries
        else
          return false
      else
        removeFunctionFiles entries

/-- The loop over the clone's directory in `syncRuntimeFunctionsDir`. -/
def copyFunctionFiles : List String → TsProgram Code Bool
  | [] => return true
  | entry :: entries => do
      if isFunctionFile entry then
        match ← repoReadFile entry with
        | none => return false
        | some content =>
            if ← openFile entry then
              if ← writeFile entry content then
                copyFunctionFiles entries
              else
                return false
            else
              return false
      else
        copyFunctionFiles entries

/-- The part of `syncRuntimeFunctionsDir` that copies the clone's functions. -/
def copyFromRepo : TsProgram Code Bool := do
  if ← repoExists then
    match ← repoReaddir with
    | none => return false
    | some entries => copyFunctionFiles entries
  else
    return true

/-- `syncRuntimeFunctionsDir`. -/
def syncRuntimeFunctionsDir : TsProgram Code Bool := do
  match ← readdir with
  | none => return false
  | some entries =>
      if ← removeFunctionFiles entries then
        if ← copyFromRepo then
          clearModuleCache
          return true
        else
          return false
      else
        return false

/-- `syncRepoAndReload`. -/
def syncRepoAndReload : TsProgram Code Bool := do
  if ← syncRepo then
    syncRuntimeFunctionsDir
  else
    return false

/-- The loops of `main` and `watchTSHook` make one refresh after the other and
go on after an error. -/
def refreshes : Nat → TsProgram Code Unit
  | 0 => return ()
  | rounds + 1 => do
      let _ ← syncRepoAndReload
      refreshes rounds

/-! ### Runs -/

/-- The refreshing loop, and one process for every invocation. -/
abbrev Pid : Type := Option Nat

abbrev Runtime (Code : Type) : Type :=
  Processes Pid (TsCall Code) TsCall.Response Unit (Shared Code)

abbrev TsEvent (Code : Type) : Type :=
  Event Pid (TsCall Code) TsCall.Response (Shared Code)

abbrev TsHistory (Code : Type) : Type := List (Program.Answered (TsCall Code) TsCall.Response)

/-- Every call is answered. -/
def step (root : Path) (call : TsCall Code) (circumstance : TsCall.Circumstance Code)
    (shared : Shared Code) : Option (call.Response × Shared Code) :=
  some (call.execute root circumstance shared)

/-- A runtime that starts with some files. -/
def start (root : Path) (exportsHandle : Code → Bool) (name : Nat → String) (rounds : Nat)
    (files : AList fun _ : String => Code) : Runtime Code where
  shared :=
    { files
      modules := fun _ => none
      moduleVersion := 1
      imports := fun _ _ => none
      written := fun _ => none
      refreshed := false }
  program
    | none => refreshes rounds
    | some index => invokeModule root exportsHandle (name index)

/-- The function file that an invocation by this name runs. -/
def functionFile (root : Path) (name : String) : Option String :=
  (entryOf root (joinPath root (name ++ ".ts"))).filter isFunctionFile

/-- An invocation that starts when a refresh has completed and runs a module
before the next refresh starts, runs the function file as it was written. -/
def RunsWritten (root : Path) (events : List (TsEvent Code)) : Prop :=
  ∀ early starting between running late,
    events = early ++ starting :: (between ++ running :: late) →
    ∀ name module entry, starting.request = .getModule name → starting.before.refreshed = true →
      (∀ event ∈ between, event.request ≠ .syncRepo) → running.pid = starting.pid →
      running.request = .handle name module → functionFile root name = some entry →
      starting.before.written entry = some module

/-- The version of the latest import. -/
def importedVersion (history : TsHistory Code) : Option Nat :=
  (history.filterMap fun answered =>
    match answered.1 with
    | .importModule _ version => some version
    | _ => none).getLast?

/-- After a refresh has completed, a module that was imported under another
version is stored only if it is what the function file holds. -/
def TsCall.StoresCurrent (root : Path) (history : TsHistory Code) (shared : Shared Code) :
    TsCall Code → Prop
  | .setModule name module =>
      shared.refreshed = true → importedVersion history ≠ some shared.moduleVersion →
        ∀ entry ∈ functionFile root name, shared.files.lookup entry = some module
  | _ => True

instance [DecidableEq Code] (root : Path) (history : TsHistory Code) (shared : Shared Code) :
    (call : TsCall Code) → Decidable (call.StoresCurrent root history shared)
  | .setModule name module =>
      inferInstanceAs (Decidable (shared.refreshed = true →
        importedVersion history ≠ some shared.moduleVersion →
          ∀ entry ∈ functionFile root name, shared.files.lookup entry = some module))
  | .getModule _ | .stat _ | .readModuleVersion | .importModule _ _ | .handle _ _ | .syncRepo
  | .readdir | .rm _ | .repoExists | .repoReaddir | .repoReadFile _ | .openFile _
  | .writeFile _ _ | .clearModuleCache => isTrue trivial

/-- `TsCall.StoresCurrent` at an event of a run. -/
def StoresCurrent (root : Path) (early : List (TsEvent Code)) (event : TsEvent Code) : Prop :=
  event.request.StoresCurrent root (Event.own event.pid early) event.before

instance [DecidableEq Code] (root : Path) (early : List (TsEvent Code)) (event : TsEvent Code) :
    Decidable (StoresCurrent root early event) :=
  inferInstanceAs (Decidable (event.request.StoresCurrent root (Event.own event.pid early)
    event.before))

end TsRuntime

end Litefunctions
