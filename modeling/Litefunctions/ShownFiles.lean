import Litefunctions.PublishedRequests

/-!
# Shown files

The page of a function shows its file from the working tree of the clone.  This
is ahead of what is published: it is what all writes before the request's read
have made of the file, of whichever request, and whether or not they were
committed and pushed.
-/

namespace Litefunctions

namespace Portal

open Program Event

variable {Response : Type} {settings : Settings} {workflow : WorkflowFile}

/-- What `GetFunction` answers. -/
def FunctionRow.shown (f : FunctionRow) (data : Bytes) : List Reply :=
  [.json 200 (.obj
    [("id", .str f.id.hex), ("name", .str f.name), ("language", .str f.language),
      ("path", .str f.path), ("is_async", .bool f.isAsync), ("content", .text data)])]

/-- A function that is shown was read, and its file too. -/
def Shows (cookies : Cookies) (fnID : String) (history : PortalHistory) (replies : List Reply) : Prop :=
  Answers 200 replies → ∃ project row data, Selects history cookies project ∧ Reads history fnID row ∧
    (⟨.repo project (.read row.path), Except.ok data⟩ : Answered PortalCall PortalCall.Response) ∈ history ∧
      replies = row.shown data

section Requests

variable {history later : PortalHistory} {c : Context} {cookies : Cookies} {fnID : String}
variable {replies more : List Reply}

theorem Shows.recall (shows : Shows cookies fnID history replies) (recalls : Recalls history later) :
    Shows cookies fnID later replies := by
  intro success
  obtain ⟨project, row, data, selects, reads, isRead, isShown⟩ := shows success
  exact ⟨project, row, data, selects.recall recalls, reads.recall recalls, recalls.mem isRead rfl, isShown⟩

theorem shows_of_declines (declines : Declines replies) : Shows cookies fnID history replies :=
  fun success => absurd success (declines 200 (by decide))

theorem Declines.append (declines : Declines replies) (others : Declines more) : Declines (replies ++ more) := by
  rintro status isSmall ⟨body, member⟩
  rcases List.mem_append.mp member with first | second
  · exact declines status isSmall ⟨body, first⟩
  · exact others status isSmall ⟨body, second⟩

/-- Without a project nothing is shown. -/
theorem getFunction_declines {request : Request Response} (noProject : c.project = none) :
    Asking settings workflow request (fun _ replies => Declines replies)
      (FunctionHandlers.getFunction c fnID) history := by
  unfold FunctionHandlers.getFunction
  cases HexText.decode fnID with
  | none => exact declines_json (by decide) _
  | some bytes =>
      apply And.intro trivial
      intro found
      cases found with
      | error err => exact declines_json (by decide) _
      | ok f =>
          show Along _ _ _ (c.mustGetProject _)
          rw [Context.mustGetProject, noProject]
          exact declines_panicked

theorem getFunction_shows {request : Request Response} (selects : HasSelected history c cookies) :
    Asking settings workflow request (Shows cookies fnID) (FunctionHandlers.getFunction c fnID)
      history := by
  unfold FunctionHandlers.getFunction
  cases decoded : HexText.decode fnID with
  | none => exact shows_of_declines (declines_json (by decide) _)
  | some bytes =>
      apply And.intro trivial
      intro found
      cases found with
      | error err => exact shows_of_declines (declines_json (by decide) _)
      | ok f =>
          refine along_mustGetProject (shows_of_declines declines_panicked) fun project isProject => ?_
          apply And.intro trivial
          intro data
          rcases data with (_ | _) | data
          · exact shows_of_declines (declines_json (by decide) _)
          · exact shows_of_declines (declines_json (by decide) _)
          · refine fun _ => ⟨project.projectName, f, data, ?_, ⟨bytes, decoded, by simp⟩, by simp, rfl⟩
            exact ((selects project isProject).mono (prefix_snoc _ _)).mono (prefix_snoc _ _)

theorem serve_shows (authn : Passkeys.WebAuthn Response) (cookies : Cookies) (fnID : String) :
    Asking settings workflow (⟨cookies, .project (.getFunction fnID)⟩ : Request Response)
      (Shows cookies fnID) (serve settings authn ⟨cookies, .project (.getFunction fnID)⟩) [] := by
  refine along_bind.mpr ((authMiddleware_asking _).imp (fun _ _ => id) ?_)
  intro after result known
  cases result with
  | error replies => exact shows_of_declines known
  | ok c =>
      refine along_bind.mpr (projectMiddleware_asking.imp (fun _ _ => id) ?_)
      intro later result selected
      cases result with
      | error replies =>
          refine along_bind.mpr ((getFunction_declines known).imp (fun _ _ => id) fun _ _ declines => ?_)
          exact shows_of_declines (selected.append declines)
      | ok project =>
          refine getFunction_shows fun chosen isChosen => ?_
          obtain rfl := Option.some.inj isChosen
          exact selected

end Requests

/-! ### Runs -/

section Runs

variable {Pid : Type} [DecidableEq Pid] {authn : Passkeys.WebAuthn Response}
variable {repos : Repositories} {requests : Pid → Request Response}
variable {events early late : List (RepoEvent Pid)} {event : RepoEvent Pid}
variable {first last : Processes Pid PortalCall PortalCall.Response (List Reply) Repositories}
variable {project path : String}

/-- A file is read as all writes have made it. -/
theorem read_written
    (ran : Processes.Ran Repositories.answer first (early ++ event :: late) last)
    (unopened : first.shared.clone project = none) {data : Bytes}
    (isRead : event.answered = ⟨.repo project (.read path), .ok data⟩) :
    some data = (writes project early).replay (first.shared.published project) path := by
  obtain ⟨choice, executed⟩ := ran.executed_of_answered_eq (by simp) isRead
  obtain ⟨middle, ranEarly, -⟩ := Processes.ran_append.mp ran
  obtain ⟨seen, -, keeps⟩ := (keepsIn_start first.shared unopened path).run ranEarly
  rw [← ran.linked.before_eq, List.nil_append] at keeps
  have executed := congrArg Prod.fst (Option.some.inj executed)
  simp only [Repositories.execute] at executed
  split at executed
  · cases executed
  · next clone isOpen =>
      have worktree := keeps.worktree clone isOpen
      split at executed
      · split at executed
        · cases executed
        · next content found =>
            obtain rfl := Except.ok.inj executed
            rw [← worktree, found]
      · cases executed

end Runs

/-! ### A file that is shown before it is published -/

/-- The second request reads the file that the first one has written. -/
def saveAndShow (isSecond : Bool) : Request Unit :=
  if isSecond then
    { cookies := { session := some "s", project := some "01000000000000000000000000000000" }
      route := .project (.getFunction "02000000000000000000000000000000") }
  else
    saves [49]

def portalThatShows : Processes Bool PortalCall PortalCall.Response (List Reply) Repositories :=
  portalOn exampleSettings refusingAuthn ⟨.gitea, [110]⟩ shopRepositories saveAndShow

def writeThenRead : List (Bool × RepoChoice) :=
  (List.replicate 6 false ++ List.replicate 6 true).map (·, fromDatabase)

def shownRun : List (RepoEvent Bool) ×
    Processes Bool PortalCall PortalCall.Response (List Reply) Repositories :=
  portalThatShows.run Repositories.answer writeThenRead

def shownRow : FunctionRow :=
  ⟨.copy [2], .copy [1], "total", "lua", "functions/lua/total.lua", false, [97], 0⟩

end Portal

end Litefunctions
