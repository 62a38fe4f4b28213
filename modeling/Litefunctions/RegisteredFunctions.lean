import Litefunctions.InterleavedRows

/-!
# Function objects of stored functions

The operator learns of functions from the portal only, and the portal asks for
an object after the database has stored the function.  So every Function object
of the cluster, at any time and whatever was deleted or failed since, is one of a
function that the database had, with its project, language and mode.
-/

namespace Litefunctions

open Portal Program

variable {Pid : Type} {first : System Pid} {early later : List (SystemEvent Pid)}

/-- The content under the key is that of a function that the database had. -/
def Registered (first : System Pid) (early : List (SystemEvent Pid)) (key : NamespacedName)
    (content : FunctionSpec) : Prop :=
  key = ⟨"default", content.name⟩ ∧
    ∃ row ∈ everIn (·.functions.rows) first early, row.name = content.name ∧
      row.language = content.language ∧ row.isAsync = content.isAsync ∧
        ∃ project ∈ everIn (·.projects.rows) first early, project.id = row.projectID ∧
          project.name = content.project

theorem everIn_subset {Row : Type} (rows : Database → List Row) (first : System Pid)
    (grows : early ⊆ later) : everIn rows first early ⊆ everIn rows first later := by
  have databasesGrow : databases first early ⊆ databases first later :=
    List.cons_subset_cons _ (List.map_subset _ grows)
  intro row member
  obtain ⟨db, isDatabase, isRow⟩ := List.mem_flatMap.mp member
  exact mem_everIn (databasesGrow isDatabase) isRow

theorem Registered.mono {key : NamespacedName} {content : FunctionSpec}
    (registered : Registered first early key content) (grows : early ⊆ later) :
    Registered first later key content := by
  obtain ⟨isKey, row, stored, sameName, sameLanguage, sameMode, project, isProject, ofRow, named⟩ :=
    registered
  exact ⟨isKey, row, everIn_subset _ first grows stored, sameName, sameLanguage, sameMode, project,
    everIn_subset _ first grows isProject, ofRow, named⟩

theorem registered_dependsOnIdentity (first : System Pid) (early : List (SystemEvent Pid)) :
    DependsOnIdentity (Registered first early) := by
  rintro key old new ⟨sameLanguage, sameProject, sameName, -, sameMode, -⟩ registered
  rwa [Registered, sameLanguage, sameProject, sameName, sameMode]

section Runs

variable [DecidableEq Pid] {Response : Type} {settings : Portal.Settings}
variable {authn : Passkeys.WebAuthn Response} {tasks : Pid → SystemTask Response}
variable {events : List (SystemEvent Pid)}
variable {middle last : Processes Pid (SystemCall Pid) SystemCall.Response SystemOutcome (System Pid)}

/-- An object that is asked for is one of a function that the process has stored. -/
theorem SystemRuns.registered_of_tells (ran : SystemRuns settings authn first tasks early middle)
    {pid : Pid} {part : PortalHistory} (embeds : EmbedsPortal pid part (Event.own pid early))
    {req : Operator.CreateFunctionRequest} (tells : TellsRegistration part req) :
    Registered first early req.key (Operator.newSpec req) := by
  obtain ⟨inDefault, projectID, path, createdBy, row, project, told⟩ := tells
  obtain ⟨known, isKnown, isProject, named⟩ := SystemRuns.project_of_tells ran embeds project
  obtain ⟨event, isEvent, -, fresh, executed⟩ := Processes.Ran.told ran embeds told
  simp only [Query.execute, FunctionQuery.execute] at executed
  split at executed
  · cases congrArg Prod.fst executed
  · split at executed
    · cases congrArg Prod.fst executed
    · next functions inserted =>
        obtain ⟨answer, isAfter⟩ := Prod.mk.inj executed
        obtain rfl := Except.ok.inj answer
        have stored := (Table.mem_insert inserted).mpr (.inr rfl)
        refine ⟨?_, ⟨fresh, projectID, req.name, req.language, path, req.isAsync, createdBy,
          event.after.clock⟩, mem_everIn (mem_databases isEvent) ?_, rfl, rfl, rfl, known, isKnown,
            isProject, named⟩
        · rw [Operator.CreateFunctionRequest.key, inDefault]
          rfl
        · rw [← isAfter]
          exact stored

/-- New objects are asked for by requests to the portal only. -/
def OnlyPortalCreates (events : List (SystemEvent Pid)) : Prop :=
  ∀ event ∈ events, ∀ req, event.request.Creates req → ∃ pid call, event.request = .portal pid call

theorem SystemRuns.createsRegistered (ran : SystemRuns settings authn first tasks events last)
    (onlyPortal : OnlyPortalCreates events) : CreatesOnly (Registered first events) events := by
  intro event member req creates absent
  obtain ⟨early, late, isRun⟩ := List.append_of_mem member
  obtain ⟨middle, ranEarly, -⟩ := Processes.ran_append.mp (isRun ▸ ran)
  have fits := Processes.Ran.assertion (isRun ▸ ran)
    ((tasks event.pid).program_fits settings authn event.pid)
  obtain ⟨caller, call, isPortal⟩ := onlyPortal event member req creates
  rw [isPortal] at fits creates
  obtain rfl : call = .createFunctionCRD req := creates
  obtain ⟨rfl, part, embeds, tells⟩ := fits
  apply (SystemRuns.registered_of_tells ranEarly embeds tells).mono
  rw [isRun]
  exact List.subset_append_left _ _

end Runs

private def isOfPortal : SystemCall Nat → Bool
  | .portal _ _ => true
  | .platform _ => false

private theorem exists_of_isOfPortal {request : SystemCall Nat} (isPortal : isOfPortal request = true) :
    ∃ pid call, request = .portal pid call := by
  cases request with
  | portal pid call => exact ⟨pid, call, rfl⟩
  | platform call => cases isPortal

end Litefunctions
