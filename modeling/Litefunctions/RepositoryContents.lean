import Litefunctions.PortalCalls
import Mathlib.Data.List.AList

/-!
# Contents of the project repositories

The portal keeps one clone of the repository of a project and works on it for
all requests.  A file is written to the working tree, staged and committed in
the clone, and published when the clone is pushed: a push publishes every
commit that the remote repository does not have, whichever request made it.
This file executes the calls to repositories on their contents.
-/

namespace Litefunctions

namespace Portal

/-! ### Clones -/

/-- The files of a tree. -/
abbrev Files : Type :=
  AList fun _ : String => Bytes

/-- The trees have the same files. -/
def SameFiles (first second : Files) : Prop :=
  first.entries.Perm second.entries

instance decidableSameFiles (first second : Files) : Decidable (SameFiles first second) :=
  inferInstanceAs (Decidable (first.entries.Perm second.entries))

structure Commit where
  id : Nat
  files : Files

instance decidableEqCommit : DecidableEq Commit := fun first second =>
  decidable_of_iff (first.id = second.id ∧ first.files.entries = second.files.entries) <| by
    cases first
    cases second
    simp [AList.ext_iff]

/-- The files of the newest commit. -/
def headFiles : List Commit → Files
  | [] => ∅
  | commit :: _ => commit.files

/-- A clone with the commits of its branch, the newest one first. -/
structure Clone where
  worktree : Files
  index : Files
  commits : List Commit

namespace Clone

/-- `git.Clone` of these commits. -/
def of (commits : List Commit) : Clone :=
  ⟨headFiles commits, headFiles commits, commits⟩

/-- The files of the working tree that are not in the index. -/
def untracked (clone : Clone) : Files :=
  clone.index.keys.foldl (fun files path => files.erase path) clone.worktree

/-- A tracked file of the working tree is missing or has changed. -/
def hasUnstagedChanges (clone : Clone) : Bool :=
  clone.index.keys.any fun path => clone.worktree.lookup path ≠ clone.index.lookup path

/-- `Worktree.Pull`: nothing to do where the branch has all commits of the
remote one, and an error where neither branch continues the other. -/
def pull (remote : List Commit) (clone : Clone) : Option Clone :=
  if remote <:+ clone.commits then
    some clone
  else if clone.commits <:+ remote ∧ !clone.hasUnstagedChanges then
    some ⟨headFiles remote ∪ clone.untracked, headFiles remote, remote⟩
  else
    none

/-- `Worktree.Add` of a file that is there, or `Worktree.Remove` of one that is
not, which fails for a file that the index does not have. -/
def stage (path : String) (clone : Clone) : Option Clone :=
  match clone.worktree.lookup path with
  | some content => some { clone with index := clone.index.insert path content }
  | none =>
      if path ∈ clone.index then
        some { clone with index := clone.index.erase path }
      else
        none

/-- `Worktree.Commit`, unless the index has the files of the newest commit. -/
def commit (id : Nat) (clone : Clone) : Option Clone :=
  if SameFiles clone.index (headFiles clone.commits) then
    none
  else
    some { clone with commits := ⟨id, clone.index⟩ :: clone.commits }

end Clone

/-! ### Calls -/

/-- The remote repositories by the names of their projects, and the clones of
the portal (`repos`). -/
structure Repositories where
  remote : String → List Commit
  clone : String → Option Clone
  nextCommit : Nat

namespace Repositories

def setClone (project : String) (clone : Clone) (repos : Repositories) : Repositories :=
  { repos with clone := Function.update repos.clone project (some clone) }

/-- `NewGitRepo`. -/
def newGitRepo (project : String) (repos : Repositories) : Option Repositories :=
  match repos.clone project with
  | none =>
      if repos.remote project = [] then
        none
      else
        some (repos.setClone project (.of (repos.remote project)))
  | some clone => (clone.pull (repos.remote project)).map (repos.setClone project ·)

/-- `ErrEmptyCommit`. -/
def emptyCommit : CommitError :=
  ⟨"cannot create empty commit: clean working tree", true⟩

/-- `Commit`, on the clone of a project.  A fault comes before the file is
staged, or after. -/
def commitFile (circumstance : PortalCall.Circumstance) (project path : String) (clone : Clone)
    (repos : Repositories) : Except CommitError Unit × Repositories :=
  let fault : CommitError := ⟨circumstance.text, false⟩
  if circumstance.fault = .refused then
    (.error fault, repos)
  else
    match clone.stage path with
    | none => (.error fault, repos)
    | some staged =>
        if circumstance.fault = .lost then
          (.error fault, repos.setClone project staged)
        else
          match staged.commit repos.nextCommit with
          | none => (.error emptyCommit, repos.setClone project staged)
          | some committed =>
              (.ok (),
                { repos.setClone project committed with nextCommit := repos.nextCommit + 1 })

/-- `Push`: only a branch that continues the remote one is accepted.  The
answer may be lost. -/
def push (circumstance : PortalCall.Circumstance) (project : String) (clone : Clone)
    (repos : Repositories) : Bool × Repositories :=
  if circumstance.fault = .refused ∨ ¬ repos.remote project <:+ clone.commits then
    (false, repos)
  else
    (circumstance.fault = .none,
      { repos with remote := Function.update repos.remote project clone.commits })

/-- The response to a call and the contents after it.  Directories are not
tracked. -/
def execute (project : String) (call : RepoCall) (circumstance : PortalCall.Circumstance)
    (repos : Repositories) : call.Response × Repositories :=
  match call with
  | .new =>
      match repos.newGitRepo project with
      | some opened => if circumstance.fault = .none then (true, opened) else (false, repos)
      | none => (false, repos)
  | .listFiles directory =>
      match repos.clone project with
      | none => ([], repos)
      | some clone =>
          (clone.worktree.keys.filter fun path => (directory ++ "/").toList.isPrefixOf path.toList,
            repos)
  | .mkdirAll _ => ((), repos)
  | .create path content =>
      match repos.clone project with
      | none => (false, repos)
      | some clone =>
          if circumstance.fault = .none then
            (true, repos.setClone project
              { clone with worktree := clone.worktree.insert path content })
          else
            (false, repos)
  | .read path =>
      match repos.clone project with
      | none => (.error .notFound, repos)
      | some clone =>
          if circumstance.fault = .none then
            match clone.worktree.lookup path with
            | none => (.error .notFound, repos)
            | some content => (.ok content, repos)
          else
            (.error .unreadable, repos)
  | .remove path =>
      match repos.clone project with
      | none => (false, repos)
      | some clone =>
          if circumstance.fault = .none ∧ path ∈ clone.worktree then
            (true, repos.setClone project { clone with worktree := clone.worktree.erase path })
          else
            (false, repos)
  | .commit path =>
      match repos.clone project with
      | none => (.error ⟨circumstance.text, false⟩, repos)
      | some clone => repos.commitFile circumstance project path clone
  | .push =>
      match repos.clone project with
      | none => (false, repos)
      | some clone => repos.push circumstance project clone

/-- The content of a file in the remote repository of a project. -/
def published (repos : Repositories) (project path : String) : Option Bytes :=
  (headFiles (repos.remote project)).lookup path

end Repositories

/-- What the portal works on, with the contents of the repositories. -/
structure Platform where
  world : World
  repos : Repositories

namespace Platform

/-- The response to a call and the platform after it. -/
def execute (call : PortalCall) (circumstance : PortalCall.Circumstance) (platform : Platform) :
    call.Response × Platform :=
  match call with
  | .repo project request =>
      let answered := platform.repos.execute project request circumstance
      (answered.1,
        { world := { platform.world with clock := platform.world.clock + circumstance.elapsed }
          repos := answered.2 })
  | request =>
      let answered := PortalCall.execute request circumstance platform.world
      (answered.1, { platform with world := answered.2 })

/-- Every answer of a repository is one that a circumstance can give. -/
theorem exists_repoAnswer (circumstance : PortalCall.Circumstance) (call : RepoCall)
    (response : call.Response) :
    ∃ other : PortalCall.Circumstance, other.elapsed = circumstance.elapsed ∧
      PortalCall.repoAnswer other call = response := by
  cases call with
  | listFiles directory => exact ⟨{ circumstance with files := response }, rfl, rfl⟩
  | mkdirAll path => exact ⟨circumstance, rfl, rfl⟩
  | read path =>
      cases response with
      | ok content =>
          exact ⟨{ circumstance with fault := .none, data := content }, rfl, rfl⟩
      | error err =>
          cases err with
          | notFound => exact ⟨{ circumstance with fault := .refused }, rfl, rfl⟩
          | unreadable => exact ⟨{ circumstance with fault := .lost }, rfl, rfl⟩
  | commit path =>
      cases response with
      | ok _ => exact ⟨{ circumstance with fault := .none }, rfl, rfl⟩
      | error err =>
          exact ⟨{ circumstance with
            fault := .refused, text := err.text, flag := err.isEmptyCommit }, rfl, rfl⟩
  | _ =>
      cases response with
      | true => exact ⟨{ circumstance with fault := .none }, rfl, rfl⟩
      | false => exact ⟨{ circumstance with fault := .refused }, rfl, rfl⟩

/-- A call on the contents of the repositories is one of the portal whose
repositories answer as the circumstances say. -/
theorem exists_execute (call : PortalCall) (circumstance : PortalCall.Circumstance)
    (platform : Platform) :
    ∃ other, PortalCall.execute call other platform.world =
      ((execute call circumstance platform).1, (execute call circumstance platform).2.world) := by
  cases call with
  | repo project request =>
      obtain ⟨other, elapsed, answer⟩ := exists_repoAnswer circumstance request
        (platform.repos.execute project request circumstance).1
      apply Exists.intro other
      simp only [PortalCall.execute, execute, elapsed, answer]
  | _ => exact ⟨circumstance, rfl⟩

end Platform

end Portal

end Litefunctions
