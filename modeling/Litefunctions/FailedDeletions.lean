import Litefunctions.PortalRoutes
import Litefunctions.RefusedCreations

/-!
# Deletions of functions that fail

`DeleteFunction` deletes the row before it removes the file, commits and
pushes.  Where one of these fails it inserts the row again, but the database
gives it a new id, the endpoints of the old row are gone, and the clone keeps
what the request has done.  A failed deletion is therefore never undone.
-/

namespace Litefunctions

namespace Portal

open Program

namespace FunctionHandlers

open Portal.Platform

/-! ### Undoing a deletion -/

/-- What can fail after the row of a function is deleted. -/
inductive DeletionStep where
  | fileRemoval
  | commit
  | push

def DeletionStep.text : DeletionStep → String
  | fileRemoval => "file remove error"
  | commit => "commit error"
  | push => "push error"

/-- No later request publishes that the file is deleted, unless it removes the
file itself. -/
def StaysPublished (settings : Settings) (project path : String) (platform : Platform) : Prop :=
  ∀ (Response : Type) (authn : Passkeys.WebAuthn Response) (requests : Nat → Portal.Request Response)
    (events : List (Event Nat PortalCall PortalCall.Response Platform)) (last : Requests Nat),
    Processes.Ran Platform.respond
      ⟨platform, fun pid => Portal.serve settings authn (requests pid)⟩ events last →
    (∀ event ∈ events, event.request ≠ .repo project (.remove path)) →
    (platform.repos.published project path).isSome →
      (last.shared.repos.published project path).isSome

/-- The tables hold the rows that they held before the request, and the deletion
of the file is not published later. -/
structure Undone (settings : Settings) (c : Context) (fnHex : String) (before after : Platform) :
    Prop where
  functions : ∀ row, row ∈ after.world.db.functions.rows ↔ row ∈ before.world.db.functions.rows
  endpoints : ∀ row, row ∈ after.world.db.endpoints.rows ↔ row ∈ before.world.db.endpoints.rows
  published : ∀ project bytes row, c.project = some project → HexText.decode fnHex = some bytes →
    before.world.db.function? (.copy bytes) = some row →
      StaysPublished settings project.projectName row.path after

/-! ### The row after a failure -/

/-- No function has this id. -/
def IsGone (id : Uuid) (platform : Platform) : Prop :=
  ∀ row ∈ platform.world.db.functions.rows, row.id ≠ id

/-- The database draws an id that no function had before the request. -/
def DrawsNew (before : Platform) (_ : PortalCall) (circumstance : PortalCall.Circumstance)
    (_ : Platform) : Prop :=
  ∀ row ∈ before.world.db.functions.rows, circumstance.fresh ≠ row.id

variable {id : Uuid} {before platform : Platform}

/-- An inserted function has a new id. -/
theorem IsGone.createFunction {projectID : Uuid} {name language path : String} {isAsync : Bool}
    {createdBy : Bytes} {moment : Moment} {db : Database}
    (gone : ∀ row ∈ db.functions.rows, row.id ≠ id) (isOther : moment.fresh ≠ id) :
    ∀ row ∈ ((FunctionQuery.createFunction projectID name language path isAsync
      createdBy).execute moment db).2.functions.rows, row.id ≠ id := by
  simp only [FunctionQuery.execute]
  split
  · exact gone
  · cases inserted : db.functions.insert
        ⟨moment.fresh, projectID, name, language, path, isAsync, createdBy, moment.now⟩ with
    | none => exact gone
    | some functions =>
        intro row member
        rcases (Table.mem_insert inserted).mp member with member | rfl
        · exact gone row member
        · exact isOther

/-- Inserting the row again does not bring its id back. -/
theorem restoreFunction_ensures {f : FunctionRow} (stored : f ∈ before.world.db.functions.rows)
    (text : String) (gone : IsGone f.id platform) :
    (restoreFunction f text).EnsuresUnder Platform.execute (DrawsNew before)
      (fun replies after => replies = [.error 500 text] ∧ IsGone f.id after ∧
        after.repos = platform.repos) platform := by
  intro circumstance isNew
  have isOther : circumstance.fresh ≠ f.id := isNew f stored
  refine ⟨rfl, ?_, rfl⟩
  show IsGone f.id (platform.execute _ circumstance).2
  simp only [Platform.execute, PortalCall.execute]
  cases circumstance.fault with
  | none => exact IsGone.createFunction gone isOther
  | refused => exact gone
  | lost => exact IsGone.createFunction gone isOther

/-- The row is gone after the statement that deletes it. -/
theorem isGone_of_deleted {circumstance : PortalCall.Circumstance} {response : Unit}
    {after : Platform}
    (deleted : platform.execute (.query (.function (.deleteFunction (some id)))) circumstance =
      (.ok response, after)) :
    IsGone id after := by
  simp only [Platform.execute, PortalCall.execute] at deleted
  cases fault : circumstance.fault with
  | none =>
      rw [fault] at deleted
      have afterEq := congrArg (fun answer => answer.2.world.db.functions.rows) deleted
      intro row member
      rw [← show _ = after.world.db.functions.rows from afterEq] at member
      have isOther := (Table.mem_remove.mp member).2
      exact of_decide_eq_false isOther
  | refused =>
      rw [fault] at deleted
      cases congrArg Prod.fst deleted
  | lost =>
      rw [fault] at deleted
      cases congrArg Prod.fst deleted

/-- A function that is read is stored. -/
theorem found_of_read {circumstance : PortalCall.Circumstance} {row : FunctionRow}
    {after : Platform}
    (read : platform.execute (.query (.function (.getFunctionByID (some id)))) circumstance =
      (.ok row, after)) :
    platform.world.db.function? id = some row := by
  simp only [Platform.execute, PortalCall.execute] at read
  cases fault : circumstance.fault with
  | none =>
      rw [fault] at read
      have answer : oneRow (platform.world.db.function? id) = .ok row := congrArg Prod.fst read
      cases found : platform.world.db.function? id with
      | none =>
          rw [found] at answer
          cases answer
      | some stored =>
          rw [found] at answer
          exact congrArg some (Except.ok.inj answer)
  | refused =>
      rw [fault] at read
      cases congrArg Prod.fst read
  | lost =>
      rw [fault] at read
      cases congrArg Prod.fst read

/-! ### The clone after a failure -/

/-- The newest commit of the clone does not have the file. -/
def CommittedWithout (project path : String) (repos : Repositories) : Prop :=
  ∃ clone, repos.clone project = some clone ∧ (headFiles clone.commits).lookup path = none

variable {repos : Repositories} {project path : String}
variable {circumstance : PortalCall.Circumstance}

theorem exists_clone_of_removed
    (removed : (repos.execute project (.remove path) circumstance).1 = true) :
    ∃ clone, (repos.execute project (.remove path) circumstance).2.clone project = some clone ∧
      clone.worktree.lookup path = none := by
  simp only [Repositories.execute] at removed ⊢
  cases found : repos.clone project with
  | none =>
      rw [found] at removed
      cases removed
  | some clone =>
      rw [found] at removed
      by_cases succeeds : circumstance.fault = .none ∧ path ∈ clone.worktree
      · simp [succeeds, Repositories.setClone]
      · simp [succeeds] at removed

/-- Committing a file that is missing commits that it is deleted. -/
theorem committedWithout_of_commit {clone : Clone} (found : repos.clone project = some clone)
    (missing : clone.worktree.lookup path = none)
    (committed : (repos.execute project (.commit path) circumstance).1 = .ok ()) :
    CommittedWithout project path (repos.execute project (.commit path) circumstance).2 := by
  simp only [Repositories.execute, found, Repositories.commitFile, Clone.stage, missing]
    at committed ⊢
  by_cases refused : circumstance.fault = .refused
  · simp [refused] at committed
  · by_cases tracked : path ∈ clone.index
    · by_cases lost : circumstance.fault = .lost
      · simp [tracked, lost] at committed
      · simp only [refused, tracked, lost, if_false, if_true, Clone.commit] at committed ⊢
        split at committed
        · cases committed
        · next makes =>
            split at makes
            · cases makes
            · obtain rfl := Option.some.inj makes
              exact ⟨_, Function.update_self _ _ _, AList.lookup_erase path clone.index⟩
    · simp [refused, tracked] at committed

theorem execute_push_clone :
    (repos.execute project .push circumstance).2.clone = repos.clone := by
  simp only [Repositories.execute]
  cases repos.clone project with
  | none => rfl
  | some clone =>
      simp only [Repositories.push]
      split <;> rfl

/-- A push that succeeds publishes what the clone has committed. -/
theorem CommittedWithout.published (without : CommittedWithout project path repos)
    (pushed : (repos.execute project .push circumstance).1 = true) :
    (repos.execute project .push circumstance).2.published project path = none := by
  obtain ⟨clone, found, missing⟩ := without
  simp only [Repositories.execute, found, Repositories.push] at pushed ⊢
  split at pushed
  · cases pushed
  · next accepted => simpa [accepted, Repositories.published] using missing

/-! ### Failed deletions -/

theorem DeletionStep.text_injective : Function.Injective DeletionStep.text := by
  intro first second same
  cases first <;> cases second <;> first | rfl | simp [DeletionStep.text] at same

/-- What a deletion that failed at this step leaves behind: the row is gone, and
where the push failed the commit is in the clone. -/
structure LeftBehind (c : Context) (fnHex : String) (before : Platform) (step : DeletionStep)
    (after : Platform) : Prop where
  gone : ∃ bytes row, HexText.decode fnHex = some bytes ∧
    before.world.db.function? (.copy bytes) = some row ∧ IsGone row.id after ∧
    (step = .push → ∃ project, c.project = some project ∧
      CommittedWithout project.projectName row.path after.repos)

/-- The deletion leaves this behind if it answers with an error of a step. -/
def Leaves (c : Context) (fnHex : String) (before : Platform) (replies : List Reply)
    (after : Platform) : Prop :=
  ∀ step : DeletionStep, replies = [.error 500 step.text] → LeftBehind c fnHex before step after

/-- The row is put back after an error at this step. -/
theorem restoreFunction_leaves {c : Context} {fnHex : String} {bytes : Bytes} {f : FunctionRow}
    (decoded : HexText.decode fnHex = some bytes)
    (found : before.world.db.function? (.copy bytes) = some f) (gone : IsGone f.id platform)
    (failed : DeletionStep)
    (committed : failed = .push → ∃ project, c.project = some project ∧
      CommittedWithout project.projectName f.path platform.repos) :
    (restoreFunction f failed.text).EnsuresUnder Platform.execute (DrawsNew before)
      (Leaves c fnHex before) platform := by
  refine (restoreFunction_ensures (function?_some found).1 failed.text gone).imp ?_
  rintro _ after ⟨rfl, gone, sameRepos⟩ step same
  obtain rfl : failed = step := DeletionStep.text_injective (by simpa using same)
  exact ⟨bytes, f, decoded, found, gone, by rwa [sameRepos]⟩

/-- A call to a repository leaves the row gone. -/
theorem IsGone.repo {circumstance : PortalCall.Circumstance} {project : String}
    {request : RepoCall} {response : request.Response} {after : Platform}
    (gone : IsGone id platform)
    (executed : platform.execute (.repo project request) circumstance = (response, after)) :
    IsGone id after := by
  have afterEq : (platform.execute (.repo project request) circumstance).2 = after :=
    congrArg Prod.snd executed
  rw [← afterEq]
  exact gone

theorem execute_repos {circumstance : PortalCall.Circumstance} {project : String}
    {request : RepoCall} {response : request.Response} {after : Platform}
    (executed : platform.execute (.repo project request) circumstance = (response, after)) :
    platform.repos.execute project request circumstance = (response, after.repos) := by
  have responseEq := congrArg Prod.fst executed
  have afterEq := congrArg (fun answer => answer.2.repos) executed
  exact Prod.ext responseEq afterEq

/-- After the file is removed and committed, a push leaves its deletion in the
clone. -/
theorem committedWithout_of_push {project path : String}
    {removal commit push : PortalCall.Circumstance} {pushed : Bool}
    {afterRemove afterCommit afterPush : Platform}
    (isRemoved : platform.execute (.repo project (.remove path)) removal = (true, afterRemove))
    (isCommitted : afterRemove.execute (.repo project (.commit path)) commit =
      (.ok (), afterCommit))
    (isPushed : afterCommit.execute (.repo project .push) push = (pushed, afterPush)) :
    CommittedWithout project path afterPush.repos := by
  have removed := execute_repos isRemoved
  have committed := execute_repos isCommitted
  have pushes := execute_repos isPushed
  obtain ⟨clone, found, missing⟩ := exists_clone_of_removed (congrArg Prod.fst removed)
  rw [removed] at found
  obtain ⟨newer, foundNewer, without⟩ :=
    committedWithout_of_commit found missing (congrArg Prod.fst committed)
  rw [committed] at foundNewer
  refine ⟨newer, ?_, without⟩
  rw [← foundNewer, ← show _ = afterPush.repos from congrArg Prod.snd pushes]
  exact congrFun execute_push_clone project

/-- A deletion that is answered with an error at one of the steps has read the
row, which is gone. -/
theorem deleteFunction_leaves (c : Context) (fnHex : String) (before : Platform) :
    (deleteFunction c fnHex).EnsuresUnder Platform.execute (DrawsNew before)
      (Leaves c fnHex before) before := by
  unfold deleteFunction
  cases decoded : HexText.decode fnHex with
  | none =>
      intro step same
      simp at same
  | some fnID =>
      apply ensuresUnder_call
      intro reading read afterRead _ isRead
      cases read with
      | error err =>
          intro step same
          simp at same
      | ok f =>
          have found := found_of_read isRead
          apply ensuresUnder_call
          intro deletion deleted afterDelete _ isDeleted
          cases deleted with
          | error err =>
              intro step same
              cases step <;> simp [DeletionStep.text] at same
          | ok _ =>
              have gone : IsGone f.id afterDelete := by
                rw [(function?_some found).2]
                exact isGone_of_deleted isDeleted
              unfold Context.mustGetProject
              cases isProject : c.project with
              | none =>
                  intro step same
                  simp at same
              | some project =>
                  apply ensuresUnder_call
                  intro removal removed afterRemove _ isRemoved
                  have gone := gone.repo isRemoved
                  cases removed with
                  | false =>
                      exact restoreFunction_leaves decoded found gone .fileRemoval (by rintro ⟨⟩)
                  | true =>
                      apply ensuresUnder_call
                      intro commit committed afterCommit _ isCommitted
                      have gone := gone.repo isCommitted
                      cases committed with
                      | error err =>
                          exact restoreFunction_leaves decoded found gone .commit (by rintro ⟨⟩)
                      | ok _ =>
                          apply ensuresUnder_call
                          intro push pushed afterPush _ isPushed
                          have gone := gone.repo isPushed
                          cases pushed with
                          | true =>
                              intro step same
                              simp at same
                          | false =>
                              apply restoreFunction_leaves decoded found gone .push
                              intro _
                              exact ⟨project, isProject,
                                committedWithout_of_push isRemoved isCommitted isPushed⟩

theorem leaves_of_run (c : Context) (fnHex : String) (before : Platform)
    (circumstances : Nat → PortalCall.Circumstance)
    (newIDs : ∀ index, ∀ row ∈ before.world.db.functions.rows,
      (circumstances index).fresh ≠ row.id) :
    Leaves c fnHex before
      ((deleteFunction c fnHex).runAlone Platform.execute circumstances before).1
      ((deleteFunction c fnHex).runAlone Platform.execute circumstances before).2 := by
  have drawn : ∀ step ∈ (deleteFunction c fnHex).stepsAlone Platform.execute circumstances before,
      DrawsNew before step.1 step.2.1 step.2.2 :=
    forall_mem_stepsAlone (fun circumstance : PortalCall.Circumstance =>
      ∀ row ∈ before.world.db.functions.rows, circumstance.fresh ≠ row.id) newIDs
  exact (deleteFunction_leaves c fnHex before).ends drawn

/-- After a deletion whose push failed, the next push of the project publishes
that the file is deleted. -/
theorem LeftBehind.published {c : Context} {fnHex : String} {before after : Platform}
    (left : LeftBehind c fnHex before .push after) :
    ∃ project bytes row, c.project = some project ∧ HexText.decode fnHex = some bytes ∧
      before.world.db.function? (.copy bytes) = some row ∧
      ∀ push : PortalCall.Circumstance,
        (after.repos.execute project.projectName .push push).1 = true →
          (after.repos.execute project.projectName .push push).2.published project.projectName
            row.path = none := by
  obtain ⟨bytes, row, decoded, found, -, committed⟩ := left.gone
  obtain ⟨project, isProject, without⟩ := committed rfl
  exact ⟨project, bytes, row, isProject, decoded, found, fun push pushed => without.published pushed⟩

/-- A deletion that fails after the row is deleted is not undone. -/
theorem deleteFunction_not_undone (settings : Settings) (c : Context) (fnHex : String)
    (before : Platform) (circumstances : Nat → PortalCall.Circumstance)
    (newIDs : ∀ index, ∀ row ∈ before.world.db.functions.rows,
      (circumstances index).fresh ≠ row.id)
    (step : DeletionStep)
    (failed : ((deleteFunction c fnHex).runAlone Platform.execute circumstances before).1 =
      [.error 500 step.text]) :
    ¬ Undone settings c fnHex before
      ((deleteFunction c fnHex).runAlone Platform.execute circumstances before).2 := by
  have left := leaves_of_run c fnHex before circumstances newIDs step failed
  obtain ⟨bytes, row, -, found, gone, -⟩ := left.gone
  intro undone
  have member := (undone.functions row).mpr (function?_some found).1
  exact gone row member rfl

/-! ### A deletion that is not pushed -/

/-- The project with one function. -/
def totalProject : Platform where
  world :=
    { emptyProject.world with
      db := { emptyProject.world.db with functions := .single totalRow } }
  repos :=
    { remote := fun _ => [⟨0, AList.singleton "functions/lua/total.lua" [1]⟩]
      clone := fun _ => some (.of [⟨0, AList.singleton "functions/lua/total.lua" [1]⟩])
      nextCommit := 1 }

/-- The push is refused. -/
def refusedPush (index : Nat) : PortalCall.Circumstance where
  fault := if index = 4 then .refused else .none
  fresh := .copy [3]

theorem refusedPush_failed :
    ((deleteFunction shopContext "02000000000000000000000000000000").runAlone Platform.execute
      refusedPush totalProject).1 = [.error 500 DeletionStep.push.text] := by
  rfl

theorem refusedPush_not_undone :
    ¬ Undone creationSettings shopContext "02000000000000000000000000000000" totalProject
      ((deleteFunction shopContext "02000000000000000000000000000000").runAlone Platform.execute
        refusedPush totalProject).2 := by
  refine deleteFunction_not_undone creationSettings shopContext _ totalProject refusedPush ?_
    .push refusedPush_failed
  intro index row member
  obtain rfl := List.mem_singleton.mp member
  show Uuid.copy [3] ≠ Uuid.copy [2]
  decide +kernel

theorem refusedPush_rows :
    ¬ ∀ (settings : Settings) (c : Context) (fnHex : String) (before : Platform)
      (circumstances : Nat → PortalCall.Circumstance) (step : DeletionStep),
      ((deleteFunction c fnHex).runAlone Platform.execute circumstances before).1 =
          [.error 500 step.text] →
        Undone settings c fnHex before
          ((deleteFunction c fnHex).runAlone Platform.execute circumstances before).2 := by
  intro always
  have undone := always creationSettings shopContext "02000000000000000000000000000000"
    totalProject refusedPush .push refusedPush_failed
  have lost : totalRow ∉ ((deleteFunction shopContext
      "02000000000000000000000000000000").runAlone Platform.execute refusedPush
        totalProject).2.world.db.functions.rows := by
    decide +kernel
  exact lost ((undone.functions totalRow).mpr (List.mem_singleton_self _))

end FunctionHandlers

end Portal

end Litefunctions
