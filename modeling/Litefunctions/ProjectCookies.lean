import Litefunctions.PortalEndpoints
import Litefunctions.PortalProjects

/-!
# Ids of projects in cookies

The scripts of the dashboard store the id of a project in the cookie that
`ProjectMiddleware` decodes.  The cards of the dashboard carry ids as plain
hexadecimal digits; the reply to `JoinProjectByInvite` has the form with dashes
of a marshalled id.
-/

namespace Litefunctions

namespace Portal

open Program

/-- The scripts of the dashboard that set the cookie `lws_project`. -/
inductive CookieScript where
  | selectProject
  | openInviteModal
  | openAccessModal
  | submitJoinInvite
  deriving DecidableEq, Repr

namespace CookieScript

/-- The text that the script stores for a project: the id of its card, or
`project_id` of the reply to the join. -/
def stored (id : Uuid) : CookieScript → String
  | selectProject | openInviteModal | openAccessModal => id.hex
  | submitJoinInvite => id.text

end CookieScript

/-- A reply hands a text to a script. -/
inductive HandsTo : CookieScript → Reply → String → Prop
  | card {script : CookieScript} {username active : String} {projects : List Page.Project}
      {project : Page.Project} (onCard : script ≠ .submitJoinInvite) (member : project ∈ projects) :
      HandsTo script (.page (.dashboard username projects active)) project.id
  | joined {text : String} :
      HandsTo .submitJoinInvite (.json 200 (.obj [("project_id", .str text)])) text

/-- Whatever the replies hand to a script is its text for some project. -/
def HandStored (replies : List Reply) : Prop :=
  ∀ reply ∈ replies, ∀ script text, HandsTo script reply text →
    ∃ id : Uuid, text = CookieScript.stored id script

theorem dashboard_handStored (cookies : Cookies) (c : Context) :
    (UIHandlers.dashboard cookies c).Along (fun _ _ => True) (fun _ => HandStored) [] := by
  have handStored : ∀ (rows : List (Project × Role)) (username active : String),
      HandStored [.page (.dashboard username (rows.map fun p =>
        { id := p.1.id.hex, name := p.1.name, role := p.2.text }) active)] := by
    intro rows username active reply member script text hands
    obtain rfl := List.mem_singleton.mp member
    cases hands with
    | card onCard projectMember =>
        obtain ⟨row, -, rfl⟩ := List.mem_map.mp projectMember
        cases script with
        | submitJoinInvite => exact absurd rfl onCard
        | _ => exact ⟨row.1.id, rfl⟩
  apply And.intro trivial
  intro listed
  cases listed with
  | error err =>
      apply And.intro trivial
      intro user
      cases user with
      | error err => exact handStored [] _ _
      | ok user => exact handStored [] _ _
  | ok rows =>
      apply And.intro trivial
      intro user
      cases user with
      | error err => exact handStored rows _ _
      | ok user => exact handStored rows _ _

private theorem handStored_error (status : Nat) (text : String) :
    HandStored [.error status text] := by
  intro reply member script handed hands
  obtain rfl := List.mem_singleton.mp member
  generalize isError : Reply.error status text = reply at hands
  cases hands with
  | card => nomatch isError
  | joined => simp [Reply.error] at isError

private theorem eq_of_handsTo_joined {script : CookieScript} {text handed : String}
    (hands : HandsTo script (.json 200 (.obj [("project_id", .str text)])) handed) :
    script = .submitJoinInvite ∧ handed = text := by
  generalize isReply : Reply.json 200 (.obj [("project_id", .str text)]) = reply at hands
  cases hands with
  | card => nomatch isReply
  | joined =>
      simp only [Reply.json.injEq, Json.obj.injEq, List.cons.injEq, Prod.mk.injEq, Json.str.injEq,
        true_and, and_true] at isReply
      exact ⟨rfl, isReply.symm⟩

theorem joinInTx_handStored (user : Bytes) (code : String)
    (history : List (Answered PortalCall PortalCall.Response)) :
    (ProjectHandlers.joinInTx user code).Along (fun _ _ => True)
      (fun _ result => ∀ replies, result = .error replies → HandStored replies) history := by
  have rejects : ∀ (status : Nat) (text : String) (replies : List Reply),
      (Except.error [Reply.error status text] : Except (List Reply) ProjectInvite) = .error replies →
        HandStored replies := by
    rintro status text replies ⟨⟩
    exact handStored_error status text
  unfold ProjectHandlers.joinInTx
  apply And.intro trivial
  intro found
  cases found with
  | error err => exact rejects _ _
  | ok invite =>
      show Along _ _ _ (if invite.createdBy = user then _ else _)
      split
      · exact rejects _ _
      · apply And.intro trivial
        intro added
        cases added with
        | error err => exact rejects _ _
        | ok _ =>
            apply And.intro trivial
            intro marked
            cases marked with
            | error err => exact rejects _ _
            | ok _ => exact fun replies isError => nomatch isError

theorem joinProjectByInvite_handStored (c : Context) (code : Option String) :
    (ProjectHandlers.joinProjectByInvite c code).Along (fun _ _ => True) (fun _ => HandStored)
      [] := by
  unfold ProjectHandlers.joinProjectByInvite ProjectHandlers.inTransaction
  split
  · exact handStored_error _ _
  · apply And.intro trivial
    intro begun
    cases begun with
    | false => exact handStored_error _ _
    | true =>
        show Along _ _ _ (ProjectHandlers.joinInTx _ _ >>= _)
        refine along_bind.mpr ((joinInTx_handStored _ _ _).imp (fun _ _ => id) ?_)
        intro history result rejects
        cases result with
        | error replies => exact ⟨trivial, fun _ => rejects replies rfl⟩
        | ok invite =>
            apply And.intro trivial
            intro committed
            cases committed with
            | false => exact handStored_error _ _
            | true =>
                intro reply member script text hands
                rw [List.mem_singleton.mp member] at hands
                obtain ⟨rfl, rfl⟩ := eq_of_handsTo_joined hands
                exact ⟨invite.projectID, rfl⟩

/-! ### Decoding -/

/-- `ProjectMiddleware` accepts the cookie and looks for the project with this id. -/
def LooksUp (text : String) (id : Uuid) : Prop :=
  ∀ session, ∃ next, projectMiddleware ⟨session, some text⟩ =
    .call (.query (.project (.getProjectByID id))) next

theorem copy_val (id : Uuid) : Uuid.copy id.val = id := by
  apply Subtype.ext
  simp [Uuid.copy, id.property]

theorem looksUp_hex (id : Uuid) : LooksUp id.hex id := by
  intro session
  have decoded : HexText.decode id.hex = some id.val := HexText.decode_encode id.val
  have copied := copy_val id
  simp only [projectMiddleware, decoded, id.property, ne_eq, not_true_eq_false, ↓reduceIte]
  generalize Uuid.copy id.val = other at copied ⊢
  subst copied
  exact ⟨_, rfl⟩

theorem not_looksUp_of_decode_eq_none {text : String} (rejected : HexText.decode text = none)
    (id : Uuid) : ¬ LooksUp text id := by
  intro looksUp
  obtain ⟨next, isCall⟩ := looksUp none
  simp only [projectMiddleware, rejected] at isCall
  nomatch isCall

theorem decode_text (id : Uuid) : HexText.decode id.text = none := by
  have dash : HexText.digitValue? '-' = none := by decide
  have member : '-' ∈ id.text.toList := by
    simp only [Uuid.text, String.toList_append, List.mem_append]
    exact .inl (.inl (.inl (.inl (.inl (.inl (.inl (.inr List.mem_cons_self)))))))
  exact HexText.decodeChars_of_mem dash member

/-- The middleware accepts what the scripts store, except for the id of a
project that was just joined. -/
theorem looksUp_stored_iff (script : CookieScript) (id : Uuid) :
    LooksUp (script.stored id) id ↔ script ≠ .submitJoinInvite := by
  cases script with
  | submitJoinInvite =>
      exact iff_of_false (not_looksUp_of_decode_eq_none (decode_text id) id) (not_not_intro rfl)
  | _ => exact iff_of_true (looksUp_hex id) (by decide)

theorem joined_not_looksUp :
    ¬ LooksUp (CookieScript.submitJoinInvite.stored (.copy [])) (.copy []) := by
  intro looksUp
  obtain ⟨next, isCall⟩ := looksUp none
  have rejected : HexText.decode (Uuid.copy []).text = none := by decide +kernel
  simp only [projectMiddleware, CookieScript.stored, rejected] at isCall
  nomatch isCall

end Portal

end Litefunctions
