import Litefunctions.InterleavedPrograms
import Litefunctions.RepositoryContents
import Litefunctions.WriteLogs

/-!
# Published files follow the writes

All requests of a project work on one clone.  A file goes from the working tree
to the index, to a commit and with a push to the remote repository, and requests
that run interleaved stage, commit and push what others have written.  As long as
only the portal pushes, each of these copies of a file follows the writes to it:
it is what some of them made of the file, and it never goes back.

The database, the operator and the vendor may answer in any way; a vendor that is
asked for a repository may make it, with some files.
-/

namespace Litefunctions

namespace Portal

open Program Event

/-! ### Runs on repositories -/

/-- What the environment decides at a call. -/
structure RepoChoice where
  circumstance : PortalCall.Circumstance
  answer : (call : PortalCall) → call.Response
  /-- The files of a repository that the vendor makes. -/
  made : Option Files

namespace Repositories

/-- The vendor makes a repository, unless it has it. -/
def make (files : Option Files) (project : String) (repos : Repositories) : Repositories :=
  match repos.remote project, files with
  | [], some files =>
      { repos with
        remote := Function.update repos.remote project [⟨repos.nextCommit, files⟩]
        nextCommit := repos.nextCommit + 1 }
  | _, _ => repos

/-- The response to a call of the portal and the repositories after it. -/
def answer (call : PortalCall) (choice : RepoChoice) (repos : Repositories) :
    Option (call.Response × Repositories) :=
  match call with
  | .repo project request => some (repos.execute project request choice.circumstance)
  | .vcs repository .createRepo =>
      some (choice.answer (.vcs repository .createRepo), repos.make choice.made repository)
  | other => some (choice.answer other, repos)

@[simp]
theorem make_none (project : String) (repos : Repositories) : repos.make none project = repos := by
  unfold make
  split <;> simp_all

/-- The platform's calls are among these. -/
theorem answer_of_execute (call : PortalCall) (circumstance : PortalCall.Circumstance)
    (platform : Platform) :
    answer call ⟨circumstance, fun call => (PortalCall.execute call circumstance platform.world).1, none⟩
        platform.repos =
      some ((platform.execute call circumstance).1, (platform.execute call circumstance).2.repos) := by
  cases call with
  | vcs repository call => cases call <;> simp [answer, Platform.execute]
  | _ => rfl

end Repositories

abbrev RepoEvent (Pid : Type) := Event Pid PortalCall PortalCall.Response Repositories

/-- The file that a call to a repository changes, with its new content. -/
def RepoCall.write : (call : RepoCall) → call.Response → Option (String × Option Bytes)
  | .create path content, isCreated => if isCreated = true then some (path, some content) else none
  | .remove path, isRemoved => if isRemoved = true then some (path, none) else none
  | _, _ => none

variable {Pid : Type}

/-- The changes of files of a project: in its working tree, or because the vendor
made the repository. -/
def writesOf (project : String) : RepoEvent Pid → WriteLog String (Option Bytes)
  | ⟨_, .repo other request, response, _, _⟩ =>
      if other = project then (request.write response).toList else []
  | ⟨_, .vcs other .createRepo, _, before, after⟩ =>
      if other = project ∧ before.remote project = [] then
        (headFiles (after.remote project)).entries.map fun file => (file.1, some file.2)
      else
        []
  | _ => []

def writes (project : String) (events : List (RepoEvent Pid)) : WriteLog String (Option Bytes) :=
  events.flatMap (writesOf project)

@[simp]
theorem writes_append (project : String) (early late : List (RepoEvent Pid)) :
    writes project (early ++ late) = writes project early ++ writes project late :=
  List.flatMap_append

theorem writes_cons (project : String) (event : RepoEvent Pid) (events : List (RepoEvent Pid)) :
    writes project (event :: events) = writesOf project event ++ writes project events :=
  List.flatMap_cons

@[simp]
theorem writes_singleton (project : String) (event : RepoEvent Pid) :
    writes project [event] = writesOf project event :=
  List.flatMap_singleton _ _

/-! ### What a call changes -/

/-- What a call can change of the remote repository of a project and of the
portal's clone, and which files it writes. -/
inductive RepoChange : List Commit → Option Clone → WriteLog String (Option Bytes) →
    List Commit → Option Clone → Prop
  | keeps (remote : List Commit) (clone : Option Clone) : RepoChange remote clone [] remote clone
  | makes (clone : Option Clone) (id : Nat) (files : Files) :
      RepoChange [] clone (files.entries.map fun file => (file.1, some file.2)) [⟨id, files⟩] clone
  | opens {remote : List Commit} (isMade : remote ≠ []) :
      RepoChange remote none [] remote (some (.of remote))
  | pulls {remote : List Commit} {clone pulled : Clone} (isPulled : clone.pull remote = some pulled) :
      RepoChange remote (some clone) [] remote (some pulled)
  | creates (remote : List Commit) (clone : Clone) (path : String) (content : Bytes) :
      RepoChange remote (some clone) [(path, some content)] remote
        (some { clone with worktree := clone.worktree.insert path content })
  | removes (remote : List Commit) (clone : Clone) (path : String) :
      RepoChange remote (some clone) [(path, none)] remote
        (some { clone with worktree := clone.worktree.erase path })
  | stages (remote : List Commit) {clone staged : Clone} {path : String}
      (isStaged : clone.stage path = some staged) :
      RepoChange remote (some clone) [] remote (some staged)
  | commits (remote : List Commit) {clone staged committed : Clone} {path : String} {id : Nat}
      (isStaged : clone.stage path = some staged) (isCommitted : staged.commit id = some committed) :
      RepoChange remote (some clone) [] remote (some committed)
  | pushes {remote : List Commit} {clone : Clone} (continues : remote <:+ clone.commits) :
      RepoChange remote (some clone) [] clone.commits (some clone)

theorem RepoChange.suffix {remote remoteAfter : List Commit} {clone cloneAfter : Option Clone}
    {log : WriteLog String (Option Bytes)}
    (change : RepoChange remote clone log remoteAfter cloneAfter) : remote <:+ remoteAfter := by
  cases change with
  | makes => exact List.nil_suffix
  | pushes continues => exact continues
  | _ => exact List.suffix_rfl

namespace Repositories

variable {repos : Repositories} {project path : String} {clone changed : Clone}
variable {log : WriteLog String (Option Bytes)}

/-- The repository of the project may change, and no other one does. -/
def ChangesOnly (project : String) (repos : Repositories) (log : WriteLog String (Option Bytes))
    (after : Repositories) : Prop :=
  RepoChange (repos.remote project) (repos.clone project) log (after.remote project)
      (after.clone project) ∧
    ∀ other ≠ project, after.remote other = repos.remote other ∧ after.clone other = repos.clone other

theorem changesOnly_refl (project : String) (repos : Repositories) :
    ChangesOnly project repos [] repos :=
  ⟨.keeps _ _, fun _ _ => ⟨rfl, rfl⟩⟩

theorem changesOnly_setClone
    (change : RepoChange (repos.remote project) (repos.clone project) log (repos.remote project)
      (some changed)) :
    ChangesOnly project repos log (repos.setClone project changed) := by
  refine ⟨?_, fun other different => ⟨rfl, Function.update_of_ne different _ _⟩⟩
  rw [show (repos.setClone project changed).clone project = some changed from Function.update_self _ _ _]
  exact change

theorem newGitRepo_changes {opened : Repositories} (isOpened : repos.newGitRepo project = some opened) :
    ChangesOnly project repos [] opened := by
  unfold newGitRepo at isOpened
  split at isOpened
  · next isNew =>
      split at isOpened
      · cases isOpened
      · next isMade =>
          rw [← Option.some.inj isOpened]
          exact changesOnly_setClone (isNew ▸ .opens isMade)
  · next clone isOpen =>
      obtain ⟨pulled, isPulled, rfl⟩ := Option.map_eq_some_iff.mp isOpened
      exact changesOnly_setClone (isOpen ▸ .pulls isPulled)

theorem commitFile_changes (circumstance : PortalCall.Circumstance) (path : String)
    (isOpen : repos.clone project = some clone) :
    ChangesOnly project repos [] (repos.commitFile circumstance project path clone).2 := by
  unfold commitFile
  split
  · exact changesOnly_refl project repos
  · cases isStaged : clone.stage path with
    | none => exact changesOnly_refl project repos
    | some staged =>
        dsimp only
        split
        · exact changesOnly_setClone (isOpen ▸ .stages _ isStaged)
        · cases isCommitted : staged.commit repos.nextCommit with
          | none => exact changesOnly_setClone (isOpen ▸ .stages _ isStaged)
          | some committed =>
              have change : ChangesOnly project repos [] (repos.setClone project committed) :=
                changesOnly_setClone (isOpen ▸ .commits _ isStaged isCommitted)
              exact change

theorem push_changes (circumstance : PortalCall.Circumstance)
    (isOpen : repos.clone project = some clone) :
    ChangesOnly project repos [] (repos.push circumstance project clone).2 := by
  unfold push
  split
  · exact changesOnly_refl project repos
  · next accepted =>
      refine ⟨?_, fun other different => ⟨Function.update_of_ne different _ _, rfl⟩⟩
      simp only [Function.update_self, isOpen]
      exact .pushes (not_not.mp (not_or.mp accepted).2)

/-- What a call changes, and which files it writes. -/
theorem execute_changes (request : RepoCall) (circumstance : PortalCall.Circumstance)
    (project : String) (repos : Repositories) :
    ChangesOnly project repos (request.write (repos.execute project request circumstance).1).toList
      (repos.execute project request circumstance).2 := by
  have kept := changesOnly_refl project repos
  cases request with
  | new =>
      simp only [execute]
      cases isOpened : repos.newGitRepo project with
      | none => exact kept
      | some opened =>
          dsimp only
          split
          · exact newGitRepo_changes isOpened
          · exact kept
  | mkdirAll _ => exact kept
  | listFiles _ | read _ =>
      simp only [execute]
      repeat' split
      all_goals exact kept
  | create path content =>
      simp only [execute]
      cases isOpen : repos.clone project with
      | none => exact kept
      | some clone =>
          dsimp only
          split
          · exact changesOnly_setClone (isOpen ▸ .creates _ clone path content)
          · exact kept
  | remove path =>
      simp only [execute]
      cases isOpen : repos.clone project with
      | none => exact kept
      | some clone =>
          dsimp only
          split
          · exact changesOnly_setClone (isOpen ▸ .removes _ clone path)
          · exact kept
  | commit path =>
      simp only [execute]
      cases isOpen : repos.clone project with
      | none => exact kept
      | some clone => exact commitFile_changes circumstance path isOpen
  | push =>
      simp only [execute]
      cases isOpen : repos.clone project with
      | none => exact kept
      | some clone => exact push_changes circumstance isOpen

theorem make_changes (files : Option Files) (project : String) (repos : Repositories) :
    ChangesOnly project repos
      (if repos.remote project = [] then
        (headFiles ((repos.make files project).remote project)).entries.map fun file => (file.1, some file.2)
      else [])
      (repos.make files project) := by
  cases isRemote : repos.remote project with
  | cons commit commits =>
      have same : repos.make files project = repos := by simp [make, isRemote]
      rw [same, if_neg (List.cons_ne_nil _ _)]
      exact changesOnly_refl project repos
  | nil =>
      rw [if_pos rfl]
      cases files with
      | none =>
          rw [make_none, isRemote]
          exact changesOnly_refl project repos
      | some files =>
          have made : repos.make (some files) project =
              { repos with
                remote := Function.update repos.remote project [⟨repos.nextCommit, files⟩]
                nextCommit := repos.nextCommit + 1 } := by
            simp [make, isRemote]
          rw [made]
          refine ⟨?_, fun other different => ⟨Function.update_of_ne different _ _, rfl⟩⟩
          simp only [Function.update_self, isRemote]
          exact .makes _ _ files

end Repositories

/-- What an event changes of a project. -/
theorem repoChange_of_answer {event : RepoEvent Pid} {choice : RepoChoice}
    (executed : Repositories.answer event.request choice event.before =
      some (event.response, event.after)) (project : String) :
    RepoChange (event.before.remote project) (event.before.clone project) (writesOf project event)
      (event.after.remote project) (event.after.clone project) := by
  obtain ⟨pid, request, response, before, after⟩ := event
  have kept := RepoChange.keeps (before.remote project) (before.clone project)
  cases request with
  | repo other request =>
      have answered : before.execute other request choice.circumstance = (response, after) :=
        Option.some.inj executed
      have changes : Repositories.ChangesOnly other before (request.write response).toList after := by
        have executes := Repositories.execute_changes request choice.circumstance other before
        rwa [answered] at executes
      by_cases isProject : other = project
      · subst isProject
        simp only [writesOf, if_pos]
        exact changes.1
      · obtain ⟨sameRemote, sameClone⟩ := changes.2 project (Ne.symm isProject)
        simp only [writesOf, if_neg isProject, sameRemote, sameClone]
        exact kept
  | vcs other request =>
      cases request with
      | createRepo =>
          have made : before.make choice.made other = after :=
            (Prod.mk.inj (Option.some.inj executed)).2
          have changes := Repositories.make_changes choice.made other before
          rw [made] at changes
          by_cases isProject : other = project
          · subst isProject
            simp only [writesOf, true_and]
            exact changes.1
          · obtain ⟨sameRemote, sameClone⟩ := changes.2 project (Ne.symm isProject)
            simp only [writesOf, isProject, false_and, if_false, sameRemote, sameClone]
            exact kept
      | _ =>
          obtain rfl : before = after := (Prod.mk.inj (Option.some.inj executed)).2
          exact kept
  | _ =>
      obtain rfl : before = after := (Prod.mk.inj (Option.some.inj executed)).2
      exact kept

/-! ### Copies of a file -/

namespace Clone

variable {clone staged committed : Clone} {path other : String} {id : Nat}

/-- The file in the newest commit and in the index. -/
def copies (clone : Clone) (path : String) : List (Option Bytes) :=
  [(headFiles clone.commits).lookup path, clone.index.lookup path]

theorem lookup_of_stage (isStaged : clone.stage path = some staged) :
    staged.worktree = clone.worktree ∧ staged.commits = clone.commits ∧
      staged.index.lookup path = clone.worktree.lookup path ∧
        ∀ other ≠ path, staged.index.lookup other = clone.index.lookup other := by
  unfold stage at isStaged
  split at isStaged
  · next content found =>
      rw [← Option.some.inj isStaged, found]
      exact ⟨rfl, rfl, AList.lookup_insert _, fun other different => AList.lookup_insert_ne different⟩
  · next missing =>
      split at isStaged
      · rw [← Option.some.inj isStaged, missing]
        exact ⟨rfl, rfl, AList.lookup_erase _ _, fun other different => AList.lookup_erase_ne different⟩
      · cases isStaged

theorem eq_of_commit (isCommitted : clone.commit id = some committed) :
    committed = { clone with commits := ⟨id, clone.index⟩ :: clone.commits } := by
  unfold commit at isCommitted
  split at isCommitted
  · cases isCommitted
  · exact (Option.some.inj isCommitted).symm

/-- Where nothing is committed, the index is as in the newest commit. -/
theorem lookup_of_commit_eq_none (nothing : clone.commit id = none) :
    clone.index.lookup path = (headFiles clone.commits).lookup path := by
  unfold commit at nothing
  split at nothing
  · next same => exact AList.perm_lookup same
  · cases nothing

end Clone

/-- After the writes the remote repository has the file as the first `seen` of
them have made it, and the copies of the clone are not behind. -/
structure Keeps (initial : String → Option Bytes) (log : WriteLog String (Option Bytes))
    (path : String) (seen : Nat) (remote : List Commit) (clone : Option Clone) : Prop where
  published : (headFiles remote).lookup path = log.after initial seen path
  unopened : clone = none → seen = log.length
  isMade : ∀ opened ∈ clone, remote ≠ []
  continues : ∀ opened ∈ clone, remote <:+ opened.commits
  worktree : ∀ opened ∈ clone, opened.worktree.lookup path = log.replay initial path
  copies : ∀ opened ∈ clone, log.Copies initial path seen (opened.copies path)

section Keeps

variable {initial : String → Option Bytes} {log more : WriteLog String (Option Bytes)}
variable {path : String} {seen since : Nat} {remote remoteAfter : List Commit}
variable {clone cloneAfter : Option Clone}

theorem Keeps.seen_le (keeps : Keeps initial log path seen remote clone) : seen ≤ log.length := by
  cases isOpen : clone with
  | none => exact (keeps.unopened isOpen).le
  | some opened => exact (keeps.copies opened isOpen).le_length

variable {opened staged committed : Clone} {other : String} {id : Nat}

theorem Keeps.copies_of_stage (keeps : Keeps initial log path seen remote (some opened))
    (isStaged : opened.stage other = some staged)
    (copies : log.Copies initial path since (opened.copies path)) :
    log.Copies initial path since (staged.copies path) := by
  obtain ⟨-, sameCommits, stagedFile, otherFiles⟩ := Clone.lookup_of_stage isStaged
  unfold Clone.copies
  rw [sameCommits]
  by_cases isPath : path = other
  · rw [isPath, stagedFile, ← isPath, keeps.worktree opened rfl]
    show log.Copies initial path since ([_] ++ [_])
    exact WriteLog.Copies.refresh copies
  · rw [otherFiles path isPath]
    exact copies

theorem copies_of_commit (isCommitted : opened.commit id = some committed)
    (copies : log.Copies initial path since (opened.copies path)) :
    log.Copies initial path since (committed.copies path) := by
  rw [Clone.eq_of_commit isCommitted]
  exact copies.advance

/-- Copies of a clone that are not behind the first `since` writes are not behind
them after a call. -/
theorem Keeps.copies_of_change (keeps : Keeps initial log path seen remote (some opened))
    (change : RepoChange remote (some opened) more remoteAfter cloneAfter)
    (copies : log.Copies initial path since (opened.copies path)) :
    ∃ later ∈ cloneAfter, (log ++ more).Copies initial path since (later.copies path) := by
  cases change with
  | keeps => exact ⟨opened, rfl, by rwa [List.append_nil]⟩
  | makes => exact absurd rfl (keeps.isMade opened rfl)
  | pulls isPulled =>
      rw [Clone.pull, if_pos (keeps.continues opened rfl)] at isPulled
      obtain rfl := Option.some.inj isPulled
      exact ⟨opened, rfl, by rwa [List.append_nil]⟩
  | creates path content => exact ⟨_, rfl, copies.append _⟩
  | removes path => exact ⟨_, rfl, copies.append _⟩
  | stages _ isStaged =>
      refine ⟨_, rfl, ?_⟩
      rw [List.append_nil]
      exact keeps.copies_of_stage isStaged copies
  | commits _ isStaged isCommitted =>
      refine ⟨_, rfl, ?_⟩
      rw [List.append_nil]
      exact copies_of_commit isCommitted (keeps.copies_of_stage isStaged copies)
  | pushes => exact ⟨opened, rfl, by rwa [List.append_nil]⟩

/-- A call keeps the working tree up to date and the clone ahead of the remote
repository. -/
theorem Keeps.clone_of_change (keeps : Keeps initial log path seen remote (some opened))
    (change : RepoChange remote (some opened) more remoteAfter cloneAfter) :
    ∀ later ∈ cloneAfter, remoteAfter ≠ [] ∧ remoteAfter <:+ later.commits ∧
      later.worktree.lookup path = (log ++ more).replay initial path := by
  have isMade := keeps.isMade opened rfl
  have continues := keeps.continues opened rfl
  have worktree := keeps.worktree opened rfl
  rintro later isLater
  cases change with
  | keeps =>
      obtain rfl := Option.some.inj isLater
      rw [List.append_nil]
      exact ⟨isMade, continues, worktree⟩
  | makes => exact absurd rfl isMade
  | pulls isPulled =>
      rw [Clone.pull, if_pos continues] at isPulled
      obtain rfl := Option.some.inj isPulled
      obtain rfl := Option.some.inj isLater
      rw [List.append_nil]
      exact ⟨isMade, continues, worktree⟩
  | creates _ _ other content =>
      obtain rfl := Option.some.inj isLater
      refine ⟨isMade, continues, ?_⟩
      rw [WriteLog.replay_snoc]
      by_cases isPath : path = other
      · rw [isPath, Function.update_self]
        exact AList.lookup_insert _
      · rw [Function.update_of_ne isPath, ← worktree]
        exact AList.lookup_insert_ne isPath
  | removes _ _ other =>
      obtain rfl := Option.some.inj isLater
      refine ⟨isMade, continues, ?_⟩
      rw [WriteLog.replay_snoc]
      by_cases isPath : path = other
      · rw [isPath, Function.update_self]
        exact AList.lookup_erase _ _
      · rw [Function.update_of_ne isPath, ← worktree]
        exact AList.lookup_erase_ne isPath
  | stages _ isStaged =>
      obtain rfl := Option.some.inj isLater
      obtain ⟨sameTree, sameCommits, -⟩ := Clone.lookup_of_stage isStaged
      rw [List.append_nil, sameTree, sameCommits]
      exact ⟨isMade, continues, worktree⟩
  | commits _ isStaged isCommitted =>
      obtain rfl := Option.some.inj isLater
      obtain ⟨sameTree, sameCommits, -⟩ := Clone.lookup_of_stage isStaged
      rw [Clone.eq_of_commit isCommitted, List.append_nil, sameTree, sameCommits]
      exact ⟨isMade, continues.trans (List.suffix_cons _ _), worktree⟩
  | pushes =>
      obtain rfl := Option.some.inj isLater
      rw [List.append_nil]
      exact ⟨fun isEmpty => isMade (List.suffix_nil.mp (isEmpty ▸ continues)), List.suffix_rfl, worktree⟩

/-- The files of a new repository are the writes that made them. -/
theorem lookup_made {files : Files} (unwritten : log.replay initial path = none) :
    files.lookup path = (log ++ files.entries.map fun file => (file.1, some file.2)).replay initial path := by
  have sameKeys : (files.entries.map fun file => (file.1, some file.2)).map Prod.fst = files.keys := by
    simp [AList.keys, List.keys]
  cases found : files.lookup path with
  | none =>
      rw [WriteLog.replay_append_of_notMem, unwritten]
      intro content member
      have isKey : path ∈ files.keys := by
        rw [← sameKeys]
        exact List.mem_map_of_mem (f := Prod.fst) member
      exact absurd isKey (AList.lookup_eq_none.mp found)
  | some content =>
      refine (WriteLog.replay_append_of_mem ?_ ?_).symm
      · rw [sameKeys]
        exact files.nodupKeys
      · exact List.mem_map.mpr ⟨⟨path, content⟩, AList.mem_lookup_iff.mp found, rfl⟩

/-- A push publishes what is committed. -/
theorem Keeps.publish (keeps : Keeps initial log path seen remote (some opened))
    (copies : log.Copies initial path since (opened.copies path)) :
    ∃ next, since ≤ next ∧ Keeps initial log path next opened.commits (some opened) := by
  obtain ⟨next, later, isCommitted, rest⟩ := copies
  have isMade : opened.commits ≠ [] := fun isEmpty =>
    keeps.isMade opened rfl (List.suffix_nil.mp (isEmpty ▸ keeps.continues opened rfl))
  refine ⟨next, later, isCommitted, nofun, fun _ _ => isMade, ?_, keeps.worktree, ?_⟩
  all_goals
    rintro other isOther
    obtain rfl := Option.some.inj isOther
  · exact List.suffix_rfl
  · exact ⟨next, le_rfl, isCommitted, rest⟩

/-- A call leaves the published file as it is, or publishes what newer writes
have made of it. -/
theorem Keeps.step (keeps : Keeps initial log path seen remote clone)
    (change : RepoChange remote clone more remoteAfter cloneAfter) :
    ∃ next, seen ≤ next ∧ Keeps initial (log ++ more) path next remoteAfter cloneAfter := by
  cases clone with
  | none =>
      have isAll := keeps.unopened rfl
      cases change with
      | keeps =>
          rw [List.append_nil]
          exact ⟨seen, le_rfl, keeps⟩
      | makes _ id files =>
          refine ⟨_, ?_, ?_, fun _ => rfl, nofun, nofun, nofun, nofun⟩
          · rw [isAll, List.length_append]
            exact Nat.le_add_right _ _
          · rw [WriteLog.after_length]
            apply lookup_made
            rw [← WriteLog.after_length, ← isAll, ← keeps.published]
            rfl
      | opens isMade =>
          have seen_le := keeps.seen_le
          rw [List.append_nil]
          refine ⟨seen, le_rfl, keeps.published, nofun, ?_, ?_, ?_, ?_⟩
          · exact fun _ _ => isMade
          · rintro opened isOpened
            rw [← Option.some.inj isOpened]
            exact List.suffix_rfl
          · rintro opened isOpened
            rw [← Option.some.inj isOpened, ← WriteLog.after_length, ← isAll]
            exact keeps.published
          · rintro opened isOpened
            rw [← Option.some.inj isOpened]
            exact ⟨seen, le_rfl, keeps.published, seen, le_rfl, keeps.published, seen_le⟩
  | some opened =>
      have clones := keeps.clone_of_change change
      have build : ∀ next, (headFiles remoteAfter).lookup path = (log ++ more).after initial next path →
          log.Copies initial path next (opened.copies path) →
          Keeps initial (log ++ more) path next remoteAfter cloneAfter := by
        intro next published copies
        obtain ⟨later, isLater, copiesLater⟩ := keeps.copies_of_change change copies
        refine ⟨published, ?_, fun other isOther => (clones other isOther).1,
          fun other isOther => (clones other isOther).2.1,
          fun other isOther => (clones other isOther).2.2, ?_⟩
        · intro isNone
          rw [isNone] at isLater
          cases isLater
        · intro other isOther
          rw [Option.mem_unique isOther isLater]
          exact copiesLater
      have copies := keeps.copies opened rfl
      by_cases sameRemote : remoteAfter = remote
      · refine ⟨seen, le_rfl, build seen ?_ copies⟩
        rw [sameRemote, keeps.published, WriteLog.after_append keeps.seen_le]
      · cases change with
        | pushes continues =>
            rw [List.append_nil]
            exact keeps.publish copies
        | makes => exact absurd rfl (keeps.isMade opened rfl)
        | _ => exact absurd rfl sameRemote

end Keeps

/-! ### Runs -/

section Runs

variable {initial : String → Option Bytes} {log : WriteLog String (Option Bytes)}
variable {project path : String} {seen : Nat}

/-- The repository of a project, as `Keeps` says. -/
abbrev KeepsIn (initial : String → Option Bytes) (log : WriteLog String (Option Bytes))
    (path : String) (seen : Nat) (project : String) (repos : Repositories) : Prop :=
  Keeps initial log path seen (repos.remote project) (repos.clone project)

/-- When the portal starts it has no clones. -/
theorem keepsIn_start (repos : Repositories) (unopened : repos.clone project = none) (path : String) :
    KeepsIn (repos.published project) [] path 0 project repos := by
  unfold KeepsIn
  rw [unopened]
  refine ⟨?_, fun _ => rfl, nofun, nofun, nofun, nofun⟩
  rw [WriteLog.after_zero]
  rfl

theorem KeepsIn.event {event : RepoEvent Pid} (keeps : KeepsIn initial log path seen project event.before)
    (executed : ∃ choice, Repositories.answer event.request choice event.before =
      some (event.response, event.after)) :
    ∃ next, seen ≤ next ∧
      KeepsIn initial (log ++ writesOf project event) path next project event.after := by
  obtain ⟨choice, executed⟩ := executed
  exact keeps.step (repoChange_of_answer executed project)

/-! ### Commits and pushes -/

/-- The copies of the clone are not behind the first `since` writes. -/
structure Holds (initial : String → Option Bytes) (log : WriteLog String (Option Bytes)) (path : String)
    (since : Nat) (project : String) (repos : Repositories) : Prop where
  keeps : ∃ seen, KeepsIn initial log path seen project repos
  copies : ∃ opened ∈ repos.clone project, log.Copies initial path since (opened.copies path)

variable {since : Nat} {repos after : Repositories} {circumstance : PortalCall.Circumstance}

theorem Holds.event {event : RepoEvent Pid} (holds : Holds initial log path since project event.before)
    (executed : ∃ choice, Repositories.answer event.request choice event.before =
      some (event.response, event.after)) :
    Holds initial (log ++ writesOf project event) path since project event.after := by
  obtain ⟨⟨seen, keeps⟩, opened, isOpen, copies⟩ := holds
  obtain ⟨next, -, keepsNext⟩ := keeps.event executed
  obtain ⟨choice, executed⟩ := executed
  have change := repoChange_of_answer executed project
  unfold KeepsIn at keeps
  rw [isOpen] at keeps change
  exact ⟨⟨next, keepsNext⟩, keeps.copies_of_change change copies⟩

/-- A commit that leaves nothing to commit. -/
theorem holds_of_commit {committed : Except CommitError Unit}
    (keeps : KeepsIn initial log path seen project repos)
    (executed : repos.execute project (.commit path) circumstance = (committed, after))
    (isDone : ∀ err, committed = .error err → err.isEmptyCommit = true) :
    Holds initial log path log.length project after := by
  cases isOpen : repos.clone project with
  | none =>
      simp only [Repositories.execute, isOpen] at executed
      have isError := isDone _ (congrArg Prod.fst executed).symm
      cases isError
  | some clone =>
      have change := (Repositories.commitFile_changes circumstance path isOpen).1
      simp only [Repositories.execute, isOpen] at executed
      rw [executed] at change
      obtain ⟨next, -, keepsNext⟩ := keeps.step change
      rw [List.append_nil] at keepsNext
      refine ⟨⟨next, keepsNext⟩, ?_⟩
      have worktree := keeps.worktree clone isOpen
      -- the index and the newest commit have the file of the working tree
      have holds : ∀ changed : Clone, after.clone project = some changed →
          changed.index.lookup path = clone.worktree.lookup path →
          (headFiles changed.commits).lookup path = changed.index.lookup path →
          ∃ opened ∈ after.clone project, log.Copies initial path log.length (opened.copies path) := by
        intro changed isChanged isStaged isCommitted
        refine ⟨changed, isChanged, ?_⟩
        rw [Clone.copies, isCommitted, isStaged, worktree]
        exact WriteLog.copies_replicate 2
      unfold Repositories.commitFile at executed
      split at executed
      · cases isDone _ (congrArg Prod.fst executed).symm
      · cases isStaged : clone.stage path with
        | none =>
            rw [isStaged] at executed
            cases isDone _ (congrArg Prod.fst executed).symm
        | some staged =>
            obtain ⟨-, sameCommits, stagedFile, -⟩ := Clone.lookup_of_stage isStaged
            rw [isStaged] at executed
            dsimp only at executed
            split at executed
            · cases isDone _ (congrArg Prod.fst executed).symm
            · cases isCommitted : staged.commit repos.nextCommit with
              | none =>
                  rw [isCommitted] at executed
                  refine holds staged ?_ stagedFile (Clone.lookup_of_commit_eq_none isCommitted).symm
                  rw [← (Prod.mk.inj executed).2]
                  exact Function.update_self _ _ _
              | some committed =>
                  rw [isCommitted, Clone.eq_of_commit isCommitted] at executed
                  refine holds ⟨staged.worktree, staged.index, ⟨repos.nextCommit, staged.index⟩ ::
                    staged.commits⟩ ?_ stagedFile rfl
                  rw [← (Prod.mk.inj executed).2]
                  exact Function.update_self _ _ _

/-- A push publishes what is committed. -/
theorem Holds.push (holds : Holds initial log path since project repos)
    (executed : repos.execute project .push circumstance = (true, after)) :
    ∃ next, since ≤ next ∧ KeepsIn initial log path next project after := by
  obtain ⟨⟨seen, keeps⟩, opened, isOpen, copies⟩ := holds
  have isClone : repos.clone project = some opened := isOpen
  unfold KeepsIn at keeps
  rw [isClone] at keeps
  obtain ⟨next, later, published⟩ := keeps.publish copies
  refine ⟨next, later, ?_⟩
  simp only [Repositories.execute, isClone] at executed
  unfold Repositories.push at executed
  split at executed
  · cases congrArg Prod.fst executed
  · rw [← (Prod.mk.inj executed).2, KeepsIn]
    simp only [Function.update_self, isClone]
    exact published

/-! ### What a run publishes -/

variable {Result : Type} [DecidableEq Pid]
variable {first last : Processes Pid PortalCall PortalCall.Response Result Repositories}
variable {events : List (RepoEvent Pid)}

/-- What a run publishes later. -/
theorem KeepsIn.run (keeps : KeepsIn initial log path seen project first.shared)
    (ran : Processes.Ran Repositories.answer first events last) :
    ∃ next, seen ≤ next ∧
      KeepsIn initial (log ++ writes project events) path next project
        (lastShared first.shared events) := by
  apply ran.linked.run_induction (motive := fun early repos => ∃ next, seen ≤ next ∧
    KeepsIn initial (log ++ writes project early) path next project repos)
  · exact ⟨seen, le_rfl, by rwa [writes, List.flatMap_nil, List.append_nil]⟩
  · rintro early event late split ⟨next, later, keepsNext⟩
    have member : event ∈ events := by simp [split]
    obtain ⟨last, further, keepsLast⟩ := keepsNext.event (ran.executed member)
    refine ⟨last, later.trans further, ?_⟩
    rwa [writes_append, writes_singleton, ← List.append_assoc]

theorem Holds.run (holds : Holds initial log path since project first.shared)
    (ran : Processes.Ran Repositories.answer first events last) :
    Holds initial (log ++ writes project events) path since project (lastShared first.shared events) := by
  apply ran.linked.run_induction (motive := fun early repos =>
    Holds initial (log ++ writes project early) path since project repos)
  · rwa [writes, List.flatMap_nil, List.append_nil]
  · intro early event late split holdsEarly
    rw [writes_append, writes_singleton, ← List.append_assoc]
    exact holdsEarly.event (ran.executed (by simp [split]))

/-- No published commit is lost. -/
theorem remote_grows (ran : Processes.Ran Repositories.answer first events last) (project : String)
    {earlier moment : Nat} (isEarlier : earlier ≤ moment) :
    (lastShared first.shared (events.take earlier)).remote project <:+
      (lastShared first.shared (events.take moment)).remote project := by
  have split : events.take moment = events.take earlier ++ (events.take moment).drop earlier := by
    have same := List.take_append_drop earlier (events.take moment)
    rwa [List.take_take, min_eq_left isEarlier, eq_comm] at same
  have linked : Linked first.shared (events.take moment ++ events.drop moment) := by
    rw [List.take_append_drop]
    exact ran.linked
  rw [split, List.append_assoc] at linked
  rw [split, lastShared_append]
  apply (linked_append.mp (linked_append.mp linked).2).1.relates
    fun before after => before.remote project <:+ after.remote project
  · exact fun _ => List.suffix_rfl
  · exact List.IsSuffix.trans
  · intro event member
    obtain ⟨choice, executed⟩ := ran.executed (List.mem_of_mem_take (List.mem_of_mem_drop member))
    exact (repoChange_of_answer executed project).suffix

/-- From moment to moment newer writes are published. -/
theorem exists_seen (ran : Processes.Ran Repositories.answer first events last)
    (unopened : first.shared.clone project = none) (path : String) :
    ∃ seen : Nat → Nat, Monotone seen ∧ ∀ moment ≤ events.length,
      KeepsIn (first.shared.published project) (writes project (events.take moment)) path
        (seen moment) project (lastShared first.shared (events.take moment)) := by
  induction events using List.reverseRecOn generalizing last with
  | nil =>
      refine ⟨fun _ => 0, monotone_const, fun moment _ => ?_⟩
      rw [List.take_nil]
      exact keepsIn_start first.shared unopened path
  | append_singleton early event ih =>
      obtain ⟨middle, ranEarly, -⟩ := Processes.ran_append.mp ran
      obtain ⟨seen, mono, keeps⟩ := ih ranEarly
      have before := keeps early.length le_rfl
      rw [List.take_length, ← ran.linked.before_eq] at before
      have member : event ∈ early ++ [event] := by simp
      have executed := ran.executed member
      obtain ⟨next, later, keepsNext⟩ := before.event executed
      refine ⟨fun moment => if moment ≤ early.length then seen moment else next, ?_, ?_⟩
      · intro earlier moment isEarlier
        dsimp only
        split
        · split
          · exact mono isEarlier
          · next within _ => exact (mono within).trans later
        · next beyond => rw [if_neg fun within => beyond (isEarlier.trans within)]
      · intro moment within
        dsimp only
        by_cases isOld : moment ≤ early.length
        · rw [if_pos isOld, List.take_append_of_le_length isOld]
          exact keeps moment isOld
        · have isNow : moment = (early ++ [event]).length := by
            rw [List.length_append, List.length_singleton] at within ⊢
            omega
          rw [if_neg isOld, isNow, List.take_length, lastShared_append, writes_append, writes_singleton]
          exact keepsNext

end Runs

end Portal

end Litefunctions
