import Litefunctions.AskedWrites
import Litefunctions.RejectedRequests

/-!
# Published requests

Requests that run interleaved work on the repositories of projects.  The
published content of a file is always one that some request has asked for, or
the initial one.  A request that was answered with success is published at once,
and only a write that came after its own one can replace what it wrote.
-/

namespace Litefunctions

namespace Portal

open Program Event

variable {Response : Type}

/-- A request with the programs behind its calls. -/
def serveRequest (settings : Settings) (authn : Passkeys.WebAuthn Response) (workflow : WorkflowFile)
    (request : Request Response) : Replies :=
  (serve settings authn request).expand workflow.calls

/-! ### The programs behind the calls -/

section Expanding

variable {settings : Settings} {workflow : WorkflowFile} {request : Request Response}
variable {history later : PortalHistory}

theorem Recalls.snoc (recalls : Recalls history later)
    (answered : Answered PortalCall PortalCall.Response) :
    Recalls (history ++ [answered]) (later ++ [answered]) := by
  unfold Recalls
  rw [List.filter_append]
  exact recalls.append List.filter_sublist

theorem Recalls.snoc_workflow (recalls : Recalls history later)
    {answered : Answered PortalCall PortalCall.Response} (isWorkflow : answered.1.addsWorkflow = true) :
    Recalls (history ++ [answered]) later := by
  have dropped : ([answered].filter fun answered => !answered.1.addsWorkflow) = [] := by
    simp [isWorkflow]
  unfold Recalls
  rw [List.filter_append, dropped, List.append_nil]
  exact recalls

theorem Recalls.grow (recalls : Recalls history later) {after : PortalHistory} (grows : later <+: after) :
    Recalls history after :=
  List.Sublist.trans recalls grows.sublist

theorem AsksFor.recall {call : PortalCall} (asks : AsksFor settings workflow request history call)
    (recalls : Recalls history later) : AsksFor settings workflow request later call := by
  cases call with
  | repo project call =>
      cases call with
      | create path content => exact Asks.recall asks recalls
      | remove path => exact Asks.recall asks recalls
      | _ => trivial
  | vcs project call =>
      cases call with
      | createRepo => exact asks
      | addWorkflow => exact Asks.recall asks recalls
      | _ => trivial
  | _ => trivial

theorem writeFile_asking {project : String}
    (asks : Asks settings workflow history request project workflow.path (some workflow.text)) :
    Asking settings workflow request (fun _ _ => True) (writeFile project workflow.path workflow.text)
      history := by
  have publishes : ∀ before, Asking settings workflow request (fun _ _ => True)
      (writeFile.publish project) before := by
    intro before
    apply And.intro trivial
    intro isPushed
    cases isPushed <;> trivial
  apply And.intro trivial
  intro isNew
  cases isNew with
  | false => trivial
  | true =>
      apply And.intro (asks.mono (prefix_snoc _ _))
      intro isCreated
      cases isCreated with
      | false => trivial
      | true =>
          apply And.intro trivial
          intro committed
          cases committed with
          | error err =>
              show Along _ _ _ (if err.isEmptyCommit = true then _ else _)
              split
              · exact publishes _
              · trivial
          | ok _ => exact publishes _

/-- The program behind a call asks for what the call does. -/
theorem calls_asking {call : PortalCall} (asks : AsksFor settings workflow request history call)
    (recalls : Recalls history later) :
    Asking settings workflow request
      (fun after response => Recalls (history ++ [⟨call, response⟩]) after) (workflow.calls call)
      later := by
  cases isWorkflow : call.addsWorkflow with
  | true =>
      cases call with
      | vcs project call =>
          cases call with
          | addWorkflow =>
              refine (writeFile_asking (Asks.recall asks recalls)).extends.imp (fun _ _ => id) ?_
              rintro after response ⟨grows, -⟩
              exact (recalls.grow grows).snoc_workflow rfl
          | _ => cases isWorkflow
      | _ => cases isWorkflow
  | false =>
      have isSingle : workflow.calls call = perform call := by
        unfold WorkflowFile.calls
        split
        · cases isWorkflow
        · rfl
      rw [isSingle]
      exact ⟨asks.recall recalls, fun response => recalls.snoc ⟨call, response⟩⟩

/-- What is known when a request is answered is known with the programs behind
its calls. -/
theorem serveRequest_recalls {authn : Passkeys.WebAuthn Response}
    {finished : PortalHistory → List Reply → Prop}
    (asking : Asking settings workflow request finished (serve settings authn request) []) :
    Asking settings workflow request (fun after replies => ∃ early, Recalls early after ∧
      finished early replies) (serveRequest settings authn workflow request) [] := by
  have start : Recalls [] [] := List.nil_sublist _
  exact asking.expand start fun _ _ _ recalls asks => calls_asking asks recalls

theorem serveRequest_asking (authn : Passkeys.WebAuthn Response) (request : Request Response) :
    Asking settings workflow request (Completes settings workflow request)
      (serveRequest settings authn workflow request) [] := by
  refine (serveRequest_recalls (serve_asking authn request)).imp (fun _ _ => id) ?_
  rintro after replies ⟨early, recalls, completes⟩ content status change answers
  obtain ⟨project, path, asks, carried⟩ := completes content status change answers
  exact ⟨project, path, asks.recall recalls, carried.recall recalls⟩

variable {Pid : Type} {project path : String}

/-- Files are written as requests ask for, or by the vendor in a repository that
it makes for a new project. -/
theorem asks_of_write {history : PortalHistory} {request : Request Response} {event : RepoEvent Pid}
    {content : Option Bytes} (asks : AsksFor settings workflow request history event.request)
    (isWrite : (path, content) ∈ writesOf project event) :
    Asks settings workflow history request project path content ∨
      ∃ name, request.route = .user (.createProject (some name)) ∧
        project = name.map settings.toLower := by
  obtain ⟨pid, call, response, before, after⟩ := event
  cases call with
  | repo other call =>
      simp only [writesOf] at isWrite
      split at isWrite
      · next isProject =>
          subst isProject
          left
          cases call with
          | create file bytes =>
              simp only [RepoCall.write] at isWrite
              split at isWrite
              · cases List.mem_singleton.mp isWrite
                exact asks
              · cases isWrite
          | remove file =>
              simp only [RepoCall.write] at isWrite
              split at isWrite
              · cases List.mem_singleton.mp isWrite
                exact asks
              · cases isWrite
          | _ => cases isWrite
      · cases isWrite
  | vcs other call =>
      cases call with
      | createRepo =>
          simp only [writesOf] at isWrite
          split at isWrite
          · next isMade =>
              obtain ⟨name, isRoute, isName⟩ := asks
              exact .inr ⟨name, isRoute, isMade.1 ▸ isName⟩
          · cases isWrite
      | _ => cases isWrite
  | _ => cases isWrite

theorem write_of_answered {event : RepoEvent Pid} {call : RepoCall} {response : call.Response}
    {content : Option Bytes} (isAnswered : event.answered = ⟨.repo project call, response⟩)
    (isWrite : call.write response = some (path, content)) : writesOf project event = [(path, content)] := by
  obtain ⟨pid, request, answer, before, after⟩ := event
  obtain ⟨rfl, isSame⟩ := Sigma.mk.inj isAnswered
  obtain rfl := eq_of_heq isSame
  simp only [writesOf, if_true, isWrite]
  rfl

end Expanding

/-! ### Runs -/

variable {Pid : Type} [DecidableEq Pid]

/-- The portal serves requests and works on these repositories. -/
def portalOn (settings : Settings) (authn : Passkeys.WebAuthn Response) (workflow : WorkflowFile)
    (repos : Repositories) (requests : Pid → Request Response) :
    Processes Pid PortalCall PortalCall.Response (List Reply) Repositories :=
  ⟨repos, fun pid => serveRequest settings authn workflow (requests pid)⟩

section Runs

variable {settings : Settings} {authn : Passkeys.WebAuthn Response} {workflow : WorkflowFile}
variable {repos : Repositories} {requests : Pid → Request Response}
variable {events : List (RepoEvent Pid)}
variable {last : Processes Pid PortalCall PortalCall.Response (List Reply) Repositories}
variable {project path : String}

/-- An error of a commit that speaks of a clean working tree is that of an empty
commit. -/
def NamesEmptyCommits (events : List (RepoEvent Pid)) : Prop :=
  ∀ event ∈ events, ∀ project path err,
    event.answered = ⟨.repo project (.commit path), .error err⟩ →
      containsText err.text "clean working tree" = true → err.isEmptyCommit = true

/-- The text of an error is that of the environment, or the commit was empty. -/
theorem commit_error {repos : Repositories} {circumstance : PortalCall.Circumstance} {err : CommitError}
    (isError : (repos.execute project (.commit path) circumstance).1 = .error err) :
    err.text = circumstance.text ∨ err.isEmptyCommit = true := by
  have faulty : err = ⟨circumstance.text, false⟩ → err.text = circumstance.text := fun same => by rw [same]
  simp only [Repositories.execute] at isError
  split at isError
  · exact .inl (faulty (Except.error.inj isError).symm)
  · unfold Repositories.commitFile at isError
    split at isError
    · exact .inl (faulty (Except.error.inj isError).symm)
    · split at isError
      · exact .inl (faulty (Except.error.inj isError).symm)
      · split at isError
        · exact .inl (faulty (Except.error.inj isError).symm)
        · split at isError
          · right
            rw [← Except.error.inj isError]
            rfl
          · cases isError

/-- No other fault has the text of an empty commit. -/
theorem namesEmptyCommits_of_schedule
    {processes : Processes Pid PortalCall PortalCall.Response (List Reply) Repositories}
    {schedule : List (Pid × RepoChoice)}
    (texts : ∀ turn ∈ schedule,
      containsText turn.2.circumstance.text "clean working tree" = false) :
    NamesEmptyCommits (processes.run Repositories.answer schedule).1 := by
  intro event member project path err isAnswered speaks
  obtain ⟨turn, isTurn, executed⟩ := Processes.executed_of_mem_run member
  obtain ⟨pid, request, response, before, after⟩ := event
  obtain ⟨rfl, isSame⟩ := Sigma.mk.inj isAnswered
  obtain rfl := eq_of_heq isSame
  rcases commit_error (congrArg Prod.fst (Option.some.inj executed)) with sameText | isEmpty
  · rw [sameText, texts turn isTurn] at speaks
    cases speaks
  · exact isEmpty

/-- The first call of a part of a history, and the part after it. -/
theorem exists_split_of_cons_sublist {pid : Pid} {answered : Answered PortalCall PortalCall.Response}
    {rest : PortalHistory} (ordered : List.Sublist (answered :: rest) (own pid events)) :
    ∃ early event late, events = early ++ event :: late ∧ event.pid = pid ∧
      event.answered = answered ∧ List.Sublist rest (own pid late) := by
  obtain ⟨first, second, ownEq, member, later⟩ := List.cons_sublist_iff.mp ordered
  obtain ⟨before, between, rfl⟩ := List.append_of_mem member
  rw [List.append_assoc, List.cons_append] at ownEq
  obtain ⟨early, event, late, split, isOwn, isAnswered, -, lateEq⟩ := exists_split_of_own_eq ownEq
  refine ⟨early, event, late, split, isOwn, isAnswered, ?_⟩
  rw [lateEq]
  exact later.trans (List.sublist_append_right _ _)

variable {initial : String → Option Bytes} {log : WriteLog String (Option Bytes)} {seen : Nat}
variable {processes : Processes Pid PortalCall PortalCall.Response (List Reply) Repositories}

/-- Whatever is written, committed and pushed is published from the push on, and
only a later write replaces it. -/
theorem published_of_ordered {write commit push : RepoEvent Pid}
    {first second late : List (RepoEvent Pid)} {content : Option Bytes}
    {committed : Except CommitError Unit}
    (keeps : KeepsIn initial log path seen project processes.shared)
    (ran : Processes.Ran Repositories.answer processes
      (write :: (first ++ commit :: (second ++ push :: late))) last)
    (isWrite : writesOf project write = [(path, content)])
    (isCommit : commit.answered = ⟨.repo project (.commit path), committed⟩)
    (isDone : ∀ err, committed = .error err → err.isEmptyCommit = true)
    (isPush : push.answered = ⟨.repo project .push, true⟩) {shown : Option Bytes}
    (isShown : (lastShared push.after late).published project path = shown) :
    shown = content ∨ (path, shown) ∈ writes project (first ++ commit :: (second ++ push :: late)) := by
  have committing := ran.executed_of_answered_eq (by simp) isCommit
  have pushing := ran.executed_of_answered_eq (by simp) isPush
  obtain ⟨_, -, isShared, executed, ran⟩ := ran
  rw [← isShared] at keeps
  obtain ⟨_, -, keepsWrite⟩ := keeps.event executed
  rw [isWrite] at keepsWrite
  -- up to the commit
  obtain ⟨middle, ranFirst, ranCommit⟩ := Processes.ran_append.mp ran
  obtain ⟨_, -, keepsFirst⟩ := keepsWrite.run ranFirst
  obtain ⟨_, -, isShared, -, ran⟩ := ranCommit
  rw [← ranFirst.lastShared, ← isShared] at keepsFirst
  obtain ⟨choice, committing⟩ := committing
  have holds := holds_of_commit keepsFirst (Option.some.inj committing) isDone
  -- up to the push
  obtain ⟨middle, ranSecond, ranPush⟩ := Processes.ran_append.mp ran
  have holdsSecond := holds.run ranSecond
  obtain ⟨_, -, isShared, -, ranLate⟩ := ranPush
  rw [← ranSecond.lastShared, ← isShared] at holdsSecond
  obtain ⟨choice, pushing⟩ := pushing
  obtain ⟨pushed, later, keepsPush⟩ := holdsSecond.push (Option.some.inj pushing)
  obtain ⟨latest, further, keepsLate⟩ := keepsPush.run ranLate
  have published : shown = (log ++ [(path, content)] ++ writes project first ++ writes project second ++
      writes project late).after initial latest path := isShown.symm.trans keepsLate.published
  simp only [List.append_assoc] at published
  rw [← List.append_assoc log] at published
  have long : (log ++ [(path, content)]).length ≤ latest := by
    rw [List.length_append] at later
    omega
  rcases WriteLog.after_append_eq_or_mem initial (log ++ [(path, content)])
    (writes project first ++ (writes project second ++ writes project late)) path long with same | member
  · left
    rw [published, same, WriteLog.replay_snoc]
    exact Function.update_self _ _ _
  · right
    rw [← published] at member
    simp only [writes_append, writes_cons, List.mem_append] at member ⊢
    tauto

end Runs

/-! ### Two saves of one file -/

/-- All calls but those to repositories are answered as the database says. -/
def fromDatabase : RepoChoice where
  circumstance := {}
  answer := fun call => (PortalCall.execute call {} oneFunctionWorld).1
  made := none

def shopRepositories : Repositories where
  remote := fun project =>
    if project = "shop" then [⟨0, (∅ : Files).insert "functions/lua/total.lua" [48]⟩] else []
  clone := fun _ => none
  nextCommit := 1

def saves (content : Bytes) : Request Unit where
  cookies := { session := some "s", project := some "01000000000000000000000000000000" }
  route := .project (.updateFunction "02000000000000000000000000000000" (.plain (some content)))

def portalWithTwoSaves : Processes Bool PortalCall PortalCall.Response (List Reply) Repositories :=
  portalOn exampleSettings refusingAuthn ⟨.gitea, [110]⟩ shopRepositories fun isSecond =>
    saves (if isSecond then [50] else [49])

/-- Both requests write the file before the first one commits and pushes it. -/
def interleavedSaves : List (Bool × RepoChoice) :=
  (List.replicate 6 false ++ List.replicate 6 true ++ List.replicate 2 false ++
    List.replicate 2 true).map (·, fromDatabase)

def saveRun : List (RepoEvent Bool) ×
    Processes Bool PortalCall PortalCall.Response (List Reply) Repositories :=
  portalWithTwoSaves.run Repositories.answer interleavedSaves

end Portal

end Litefunctions
