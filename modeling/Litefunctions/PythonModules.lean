import Mathlib.Data.List.Basic
import Mathlib.Logic.Function.Basic

/-!
# Modules of the Python runtime

`load_module` registers a module in `sys.modules`, runs the file of the user and
only then keeps track of the name.  `clear_module_cache` removes the names that
are tracked.  So a file that raises leaves its name behind, and a function with
the name of an imported module takes that module away.
-/

namespace Litefunctions

namespace PythonRuntime

/-! ### Loading and clearing -/

/-- A module object: one that was imported before, or one that was made
since. -/
inductive PyModule where
  | existing (id : Nat)
  | created (serial : Nat)
  deriving DecidableEq, Repr

/-- An exception, by what the runtime asks of it. -/
structure PyError where
  isFileNotFound : Bool
  text : String
  deriving DecidableEq, Repr

/-- `sys.modules`, the two tables of the runtime, and the number of module
objects that were made. -/
structure ModuleState where
  sysModules : String → Option PyModule
  modules : String → Option PyModule
  moduleNames : List String
  made : Nat

/-- What `load_module` comes upon: no file, no spec, or a file that is executed.
The file imports some modules, and it may raise. -/
inductive Loading where
  | missing
  | noSpec
  | executed (imports : List String) (raised : Option PyError)

/-- A call of `load_module` and what it comes upon. -/
structure LoadCall where
  name : String
  loading : Loading

def runtimeFunctionsPath : String :=
  "/app/pkg/functions"

/-- `os.path.join(runtime_functions_path(), f"\x7bname\x7d.py")`. -/
def filePath (name : String) : String :=
  if name.toList.head? = some '/' then name ++ ".py"
  else runtimeFunctionsPath ++ "/" ++ name ++ ".py"

namespace ModuleState

/-- A new module object under a name of `sys.modules`. -/
def register (name : String) (state : ModuleState) : ModuleState :=
  { state with
    sysModules := Function.update state.sysModules name (some (.created state.made))
    made := state.made + 1 }

/-- `import`; a module that is in `sys.modules` is not imported again. -/
def importModule (state : ModuleState) (name : String) : ModuleState :=
  if (state.sysModules name).isSome then state else state.register name

/-- The steps of `load_module` from the registration on. -/
def execute (name : String) (imports : List String) (raised : Option PyError)
    (state : ModuleState) : Except PyError PyModule × ModuleState :=
  let executed := imports.foldl importModule (state.register name)
  match raised with
  | some error => (.error error, executed)
  | none =>
      (.ok (.created state.made),
        { executed with
          modules := Function.update executed.modules name (some (.created state.made))
          moduleNames := executed.moduleNames.insert name })

/-- `load_module`; there is no step of another task between its own. -/
def loadModule (call : LoadCall) (state : ModuleState) : Except PyError PyModule × ModuleState :=
  match state.modules call.name with
  | some cached => (.ok cached, state)
  | none =>
      match call.loading with
      | .missing => (.error ⟨true, filePath call.name⟩, state)
      | .noSpec => (.error ⟨false, "failed to load module spec for " ++ call.name⟩, state)
      | .executed imports raised => state.execute call.name imports raised

/-- `clear_module_cache`. -/
def clearModuleCache (state : ModuleState) : ModuleState :=
  { state with
    sysModules := fun name => if name ∈ state.moduleNames then none else state.sysModules name
    modules := fun _ => none
    moduleNames := [] }

/-- The runtime after a clear, or at its start. -/
def cleared (sysModules : String → Option Nat) : ModuleState where
  sysModules name := (sysModules name).map .existing
  modules _ := none
  moduleNames := []
  made := 0

def loadAll (state : ModuleState) (calls : List LoadCall) : ModuleState :=
  calls.foldl (fun state call => (state.loadModule call).2) state

end ModuleState

/-! ### Executions -/

/-- A file that is executed. -/
structure Execution where
  name : String
  imports : List String
  raised : Option PyError
  deriving DecidableEq, Repr

/-- The files that some calls execute: a module that was loaded is not executed
again. -/
def executions (loaded : List String) : List LoadCall → List Execution
  | [] => []
  | call :: calls =>
      if call.name ∈ loaded then executions loaded calls
      else
        match call.loading with
        | .missing | .noSpec => executions loaded calls
        | .executed imports none =>
            ⟨call.name, imports, none⟩ :: executions (loaded.insert call.name) calls
        | .executed imports (some error) =>
            ⟨call.name, imports, some error⟩ :: executions loaded calls

/-- One of the files of this name is executed to its end. -/
def Succeeds (done : List Execution) (name : String) : Prop :=
  ∃ execution ∈ done, execution.name = name ∧ execution.raised = none

/-- No file takes the name of a module that was imported before, every name
whose file is executed is loaded in the end, and files import only what is there
before or is loaded. -/
def LeavesNothing (sysModules : String → Option Nat) (done : List Execution) : Prop :=
  ∀ execution ∈ done, sysModules execution.name = none ∧ Succeeds done execution.name ∧
    ∀ other ∈ execution.imports, sysModules other ≠ none ∨ Succeeds done other

theorem succeeds_concat (done : List Execution) (last : Execution) (name : String) :
    Succeeds (done ++ [last]) name ↔
      Succeeds done name ∨ last.name = name ∧ last.raised = none := by
  simp only [Succeeds, List.mem_append, List.mem_singleton]
  constructor
  · rintro ⟨execution, inDone | rfl, isName, notRaised⟩
    · exact .inl ⟨execution, inDone, isName, notRaised⟩
    · exact .inr ⟨isName, notRaised⟩
  · rintro (⟨execution, inDone, isName, notRaised⟩ | ⟨isName, notRaised⟩)
    · exact ⟨execution, .inl inDone, isName, notRaised⟩
    · exact ⟨last, .inr rfl, isName, notRaised⟩

namespace ModuleState

/-! ### What an execution leaves -/

section Imports

variable {state : ModuleState} {name other : String} {imports : List String}

@[simp]
theorem register_moduleNames : (state.register name).moduleNames = state.moduleNames := rfl

@[simp]
theorem register_modules : (state.register name).modules = state.modules := rfl

theorem register_self : (state.register name).sysModules name = some (.created state.made) :=
  Function.update_self _ _ _

theorem register_of_ne (differs : other ≠ name) :
    (state.register name).sysModules other = state.sysModules other :=
  Function.update_of_ne differs _ _

theorem importAll_tables :
    (imports.foldl importModule state).modules = state.modules ∧
      (imports.foldl importModule state).moduleNames = state.moduleNames := by
  induction imports generalizing state with
  | nil => exact ⟨rfl, rfl⟩
  | cons first imports ih =>
      rw [List.foldl_cons]
      have later := @ih (state.importModule first)
      have once : (state.importModule first).modules = state.modules ∧
          (state.importModule first).moduleNames = state.moduleNames := by
        unfold importModule
        split <;> simp
      rw [later.1, later.2]
      exact once

/-- Imports keep what is bound, and everything that they do not name. -/
theorem importAll_kept (kept : name ∈ imports → (state.sysModules name).isSome) :
    (imports.foldl importModule state).sysModules name = state.sysModules name := by
  induction imports generalizing state with
  | nil => rfl
  | cons first imports ih =>
      have once : (state.importModule first).sysModules name = state.sysModules name := by
        unfold importModule
        split
        · rfl
        · next unbound =>
            apply register_of_ne
            rintro rfl
            exact unbound (kept List.mem_cons_self)
      rw [List.foldl_cons, ih, once]
      intro member
      rw [once]
      exact kept (List.mem_cons_of_mem first member)

theorem importAll_bound (member : name ∈ imports) :
    ((imports.foldl importModule state).sysModules name).isSome := by
  induction imports generalizing state with
  | nil => cases member
  | cons first imports ih =>
      rw [List.foldl_cons]
      rcases List.mem_cons.mp member with rfl | later
      · have bound : ((state.importModule name).sysModules name).isSome := by
          unfold importModule
          split
          · next isBound => exact isBound
          · rw [register_self]
            rfl
        rw [importAll_kept fun _ => bound]
        exact bound
      · exact ih later

end Imports

/-- What is in the tables after some executions. -/
structure Loaded (sysModules : String → Option Nat) (done : List Execution)
    (state : ModuleState) : Prop where
  tracked : ∀ name, name ∈ state.moduleNames ↔ Succeeds done name
  cached : ∀ name, (state.modules name).isSome ↔ name ∈ state.moduleNames
  untouched : ∀ name, (∀ execution ∈ done, execution.name ≠ name ∧
    (name ∈ execution.imports → sysModules name ≠ none)) →
    state.sysModules name = (sysModules name).map .existing
  registered : ∀ execution ∈ done, ∃ serial,
    state.sysModules execution.name = some (.created serial)
  imported : ∀ execution ∈ done, ∀ other ∈ execution.imports, (state.sysModules other).isSome

section Runs

variable {sysModules : String → Option Nat} {done : List Execution} {state : ModuleState}

theorem Loaded.cleared (sysModules : String → Option Nat) :
    Loaded sysModules [] (ModuleState.cleared sysModules) := by
  constructor
  · simp [ModuleState.cleared, Succeeds]
  · simp [ModuleState.cleared]
  · intro name _
    rfl
  · simp
  · simp

/-- The entries of `sys.modules` after an execution. -/
theorem execute_sysModules (execution : Execution) :
    (state.execute execution.name execution.imports execution.raised).2.sysModules =
      (execution.imports.foldl importModule (state.register execution.name)).sysModules := by
  unfold execute
  cases execution.raised <;> rfl

theorem execute_bound {execution : Execution} {other : String} {module : PyModule}
    (differs : other ≠ execution.name) (bound : state.sysModules other = some module) :
    (state.execute execution.name execution.imports execution.raised).2.sysModules other =
      some module := by
  have kept : (state.register execution.name).sysModules other = some module := by
    rw [register_of_ne differs, bound]
  rw [execute_sysModules, importAll_kept fun _ => by rw [kept]; rfl, kept]

theorem execute_self (execution : Execution) :
    (state.execute execution.name execution.imports execution.raised).2.sysModules execution.name =
      some (.created state.made) := by
  have bound : (state.register execution.name).sysModules execution.name =
      some (.created state.made) := register_self
  rw [execute_sysModules, importAll_kept fun _ => by rw [bound]; rfl, bound]

theorem Loaded.execute (loaded : Loaded sysModules done state) (execution : Execution) :
    Loaded sysModules (done ++ [execution])
      (state.execute execution.name execution.imports execution.raised).2 := by
  have tables := @importAll_tables (state.register execution.name) execution.imports
  simp only [register_modules, register_moduleNames] at tables
  have stillBound : ∀ other, (state.sysModules other).isSome →
      ((state.execute execution.name execution.imports execution.raised).2.sysModules other).isSome := by
    intro other bound
    obtain ⟨module, isModule⟩ := Option.isSome_iff_exists.mp bound
    by_cases same : other = execution.name
    · rw [same, execute_self]
      rfl
    · rw [execute_bound same isModule]
      rfl
  constructor
  · intro name
    rw [succeeds_concat, ← loaded.tracked]
    cases raisedEq : execution.raised with
    | none => simp [ModuleState.execute, tables.2, or_comm, eq_comm]
    | some error => simp [ModuleState.execute, tables.2]
  · intro name
    cases raisedEq : execution.raised with
    | none =>
        simp only [ModuleState.execute, tables.1, tables.2, List.mem_insert_iff, ← loaded.cached]
        by_cases same : name = execution.name
        · subst same
          simp
        · simp [same]
    | some error =>
        simp only [ModuleState.execute, tables.1, tables.2]
        exact loaded.cached name
  · intro name untouched
    have ofDone := loaded.untouched name fun other member =>
      untouched other (List.mem_append_left _ member)
    obtain ⟨notOwn, importedBefore⟩ := untouched execution (by simp)
    rw [execute_sysModules, importAll_kept, register_of_ne notOwn.symm, ofDone]
    intro isImported
    rw [register_of_ne notOwn.symm, ofDone, Option.isSome_map, Option.isSome_iff_ne_none]
    exact importedBefore isImported
  · intro other member
    by_cases same : other.name = execution.name
    · rw [same, execute_self]
      exact ⟨_, rfl⟩
    · rcases List.mem_append.mp member with inDone | isLast
      · obtain ⟨serial, bound⟩ := loaded.registered other inDone
        exact ⟨serial, execute_bound same bound⟩
      · exact absurd (congrArg Execution.name (List.mem_singleton.mp isLast)) same
  · intro other member name isImported
    rcases List.mem_append.mp member with inDone | isLast
    · exact stillBound name (loaded.imported other inDone name isImported)
    · rw [execute_sysModules]
      rw [List.mem_singleton.mp isLast] at isImported
      exact importAll_bound isImported

/-- The calls execute the files that have not been loaded. -/
theorem Loaded.loadAll (loaded : Loaded sysModules done state) (calls : List LoadCall) :
    Loaded sysModules (done ++ executions state.moduleNames calls) (state.loadAll calls) := by
  induction calls generalizing state done with
  | nil => simpa [executions, ModuleState.loadAll] using loaded
  | cons call calls ih =>
      have isCached := loaded.cached call.name
      rw [executions]
      cases cachedEq : state.modules call.name with
      | some cached =>
          have inNames : call.name ∈ state.moduleNames := isCached.mp (by rw [cachedEq]; rfl)
          rw [if_pos inNames]
          simpa [ModuleState.loadAll, loadModule, cachedEq] using ih loaded
      | none =>
          have notInNames : call.name ∉ state.moduleNames := by
            rw [← isCached, cachedEq]
            simp
          rw [if_neg notInNames]
          cases loadingEq : call.loading with
          | missing => simpa [ModuleState.loadAll, loadModule, cachedEq, loadingEq] using ih loaded
          | noSpec => simpa [ModuleState.loadAll, loadModule, cachedEq, loadingEq] using ih loaded
          | executed imports raised =>
              have next := ih (loaded.execute ⟨call.name, imports, raised⟩)
              have tables := @importAll_tables (state.register call.name) imports
              simp only [register_modules, register_moduleNames] at tables
              cases raised with
              | none =>
                  simpa [ModuleState.loadAll, loadModule, cachedEq, loadingEq, ModuleState.execute,
                    tables.2] using next
              | some error =>
                  simpa [ModuleState.loadAll, loadModule, cachedEq, loadingEq, ModuleState.execute,
                    tables.2] using next

end Runs

/-- After some loads and a clear `sys.modules` is what it was before exactly if
the loads leave nothing. -/
theorem clear_restores_iff (sysModules : String → Option Nat) (calls : List LoadCall) :
    ((cleared sysModules).loadAll calls).clearModuleCache.sysModules =
      (cleared sysModules).sysModules ↔ LeavesNothing sysModules (executions [] calls) := by
  have loaded : Loaded sysModules (executions [] calls) ((cleared sysModules).loadAll calls) :=
    (Loaded.cleared sysModules).loadAll calls
  have popped : ∀ name, Succeeds (executions [] calls) name →
      ((cleared sysModules).loadAll calls).clearModuleCache.sysModules name = none := by
    intro name succeeds
    exact if_pos ((loaded.tracked name).mpr succeeds)
  have kept : ∀ name, ¬ Succeeds (executions [] calls) name →
      ((cleared sysModules).loadAll calls).clearModuleCache.sysModules name =
        ((cleared sysModules).loadAll calls).sysModules name := by
    intro name fails
    exact if_neg (mt (loaded.tracked name).mp fails)
  have atStart : ∀ name, (cleared sysModules).sysModules name = (sysModules name).map .existing :=
    fun _ => rfl
  constructor
  · intro same execution member
    have succeeds : Succeeds (executions [] calls) execution.name := by
      by_contra fails
      obtain ⟨serial, bound⟩ := loaded.registered execution member
      have stays := congrFun same execution.name
      rw [kept _ fails, bound, atStart] at stays
      obtain ⟨id, -, clash⟩ := Option.map_eq_some_iff.mp stays.symm
      cases clash
    have unbound : sysModules execution.name = none := by
      have stays := congrFun same execution.name
      rw [popped _ succeeds, atStart] at stays
      exact Option.map_eq_none_iff.mp stays.symm
    apply And.intro unbound
    apply And.intro succeeds
    intro other isImported
    by_cases otherSucceeds : Succeeds (executions [] calls) other
    · exact .inr otherSucceeds
    · have stays := congrFun same other
      have bound := loaded.imported execution member other isImported
      rw [kept _ otherSucceeds] at stays
      rw [stays, atStart, Option.isSome_map, Option.isSome_iff_ne_none] at bound
      exact .inl bound
  · intro leavesNothing
    ext1 name
    by_cases succeeds : Succeeds (executions [] calls) name
    · obtain ⟨execution, member, rfl, -⟩ := id succeeds
      rw [popped _ succeeds, atStart, (leavesNothing execution member).1, Option.map_none]
    · rw [kept _ succeeds, atStart]
      apply loaded.untouched
      intro execution member
      obtain ⟨-, ownSucceeds, imports⟩ := leavesNothing execution member
      constructor
      · rintro rfl
        exact succeeds ownSucceeds
      · intro isImported
        exact (imports name isImported).resolve_right succeeds

/-- A function with the name of a module that the runtime has imported takes it
away, and a file that raises leaves its own name. -/
theorem json_not_restored :
    ¬ ∀ (sysModules : String → Option Nat) (calls : List LoadCall),
      ((cleared sysModules).loadAll calls).clearModuleCache.sysModules =
        (cleared sysModules).sysModules := by
  intro restored
  have json := congrFun (restored (fun name => if name = "json" then some 0 else none)
    [⟨"json", .executed [] none⟩]) "json"
  exact absurd json (by decide +kernel)

end ModuleState

end PythonRuntime

end Litefunctions
