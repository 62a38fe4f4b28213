import Litefunctions.ProjectOwners

/-!
# Who changes the roles

A user becomes manager or owner of a project by creating it or through an
owner, and only owners remove other members, as long as no other user sends an
update or a revocation: the handlers of access rows do not look at the role of
their user.
-/

namespace Litefunctions

namespace Portal

section Requests

variable {Response : Type}

/-- The request is made by an owner of the project. -/
def Request.IsByOwner (request : Request Response) (world : World) (projectID : Uuid) : Prop :=
  ∃ userID, request.cookies.IsOf world userID ∧ world.db.role? userID projectID = some .owner

/-- The user creates a project with the request. -/
def Request.CreatesFor (request : Request Response) (world : World) (userID : Bytes) : Prop :=
  (∃ body, request.route = .user (.createProject body)) ∧ request.cookies.IsOf world userID

/-- Who becomes manager or owner has created the project or is made so by an
owner; who is removed leaves or is removed by an owner. -/
structure Lawful (request : Request Response) (before : World) (after : Database) : Prop where
  promoted : ∀ userID projectID role, role ≠ .viewer → after.role? userID projectID = some role →
    before.db.role? userID projectID ≠ some role →
    request.CreatesFor before userID ∨ request.IsByOwner before projectID
  removed : ∀ userID projectID, (before.db.role? userID projectID).isSome →
    after.role? userID projectID = none →
    request.cookies.IsOf before userID ∨ request.IsByOwner before projectID

/-- The action of a user who is no owner makes a member manager or owner, or
removes another member. -/
def RoleAction.Oversteps (roles : Roles) (userID : Bytes) : RoleAction → Prop
  | update member projectID role =>
      roles userID projectID ≠ some .owner ∧ role ≠ .viewer ∧
        (roles member projectID).isSome ∧ roles member projectID ≠ some role
  | revoke member projectID =>
      roles userID projectID ≠ some .owner ∧ member ≠ userID ∧
        (roles member projectID).isSome ∧ roles member projectID ≠ some .owner
  | _ => False

/-- A user with a valid session, who is no owner of the project in the cookie,
requests such an action. -/
def Request.Oversteps (request : Request Response) (world : World) : Prop :=
  ∃ userID action, request.cookies.IsOf world userID ∧
    Performs request.cookies userID request.route action ∧ action.Oversteps world.db.role? userID

private theorem eq_of_set {roles : Roles} {member user : Bytes} {changed projectID : Uuid}
    {value role : Option Role} (isRole : roles.set member changed value user projectID = role)
    (was : roles user projectID ≠ role) : user = member ∧ projectID = changed ∧ value = role := by
  unfold Roles.set at isRole
  split at isRole
  · next same => exact ⟨same.1, same.2, isRole⟩
  · exact absurd isRole was

/-- Who has become manager or owner has created the project or was updated. -/
theorem RoleAction.promotes {roles : Roles} {action : RoleAction} {user : Bytes} {projectID : Uuid}
    {role : Role} (notViewer : role ≠ .viewer) (isRole : action.apply roles user projectID = some role)
    (was : roles user projectID ≠ some role) :
    action = .create user projectID ∨
      (action = .update user projectID role ∧ (roles user projectID).isSome) := by
  cases action with
  | keep => exact absurd isRole was
  | create _ _ =>
      obtain ⟨rfl, rfl, -⟩ := eq_of_set isRole was
      exact .inl rfl
  | join member changed =>
      rcases apply_join roles member changed with same | ⟨-, changes⟩
      · exact absurd (same ▸ isRole) was
      · rw [changes] at isRole
        exact absurd (Option.some.inj (eq_of_set isRole was).2.2).symm notViewer
  | update member changed new =>
      rcases apply_update roles member changed new with same | ⟨isMember, changes⟩
      · exact absurd (same ▸ isRole) was
      · rw [changes] at isRole
        obtain ⟨rfl, rfl, isNew⟩ := eq_of_set isRole was
        exact .inr ⟨by rw [Option.some.inj isNew], isMember⟩
  | revoke member changed =>
      rcases apply_revoke roles member changed with same | ⟨-, changes⟩
      · exact absurd (same ▸ isRole) was
      · rw [changes] at isRole
        cases (eq_of_set isRole was).2.2

/-- Who is no member any more was revoked, and was no owner. -/
theorem RoleAction.removes {roles : Roles} {action : RoleAction} {user : Bytes} {projectID : Uuid}
    (isMember : (roles user projectID).isSome) (isNone : action.apply roles user projectID = none) :
    action = .revoke user projectID ∧ roles user projectID ≠ some .owner := by
  have was : roles user projectID ≠ none := Option.isSome_iff_ne_none.mp isMember
  cases action with
  | keep => exact absurd isNone was
  | create _ _ => cases (eq_of_set isNone was).2.2
  | join member changed =>
      rcases apply_join roles member changed with same | ⟨-, changes⟩
      · exact absurd (same ▸ isNone) was
      · rw [changes] at isNone
        cases (eq_of_set isNone was).2.2
  | update member changed role =>
      rcases apply_update roles member changed role with same | ⟨-, changes⟩
      · exact absurd (same ▸ isNone) was
      · rw [changes] at isNone
        cases (eq_of_set isNone was).2.2
  | revoke member changed =>
      rcases apply_revoke roles member changed with same | ⟨notOwner, changes⟩
      · exact absurd (same ▸ isNone) was
      · rw [changes] at isNone
        obtain ⟨rfl, rfl, -⟩ := eq_of_set isNone was
        exact ⟨rfl, notOwner⟩

theorem lawful_of_acts {request : Request Response} {before : World} {after : Database}
    (within : ¬ request.Oversteps before) (acts : ActsOnRoles request before after) :
    Lawful request before after := by
  obtain ⟨cookies, route⟩ := request
  obtain ⟨userID, action, ⟨performs, roles, -⟩, isOf⟩ := acts
  constructor
  · intro user projectID role notViewer isRole was
    rw [roles] at isRole
    rcases RoleAction.promotes notViewer isRole was with rfl | ⟨rfl, isMember⟩
    · have valid := isOf.resolve_left nofun
      cases performs
      exact .inl ⟨⟨_, rfl⟩, valid⟩
    · have isOf := isOf.resolve_left nofun
      by_contra unlawful
      refine within ⟨userID, _, isOf, performs, fun isOwner => ?_, notViewer, isMember, was⟩
      exact unlawful (.inr ⟨userID, isOf, isOwner⟩)
  · intro user projectID was isNone
    rw [roles] at isNone
    obtain ⟨rfl, notOwner⟩ := RoleAction.removes was isNone
    have isOf := isOf.resolve_left nofun
    by_contra unlawful
    refine within ⟨userID, _, isOf, performs, fun isOwner => ?_, ?_, was, notOwner⟩
    · exact unlawful (.inr ⟨userID, isOf, isOwner⟩)
    · rintro rfl
      exact unlawful (.inl isOf)

end Requests

/-! ### Runs -/

section Runs

variable {Response : Type} {settings : Settings} {authn : Passkeys.WebAuthn Response}
variable {first world : World}

/-- A request that was served in a run, with the world before it and the
database after it. -/
structure RunStep (Response : Type) where
  request : Request Response
  before : World
  after : Database

/-- The runs from a world in which every request is as `allowed` says, with
their steps. -/
inductive Ran (settings : Settings) (authn : Passkeys.WebAuthn Response)
    (allowed : Request Response → World → Prop) (first : World) : List (RunStep Response) → World → Prop
  | start : Ran settings authn allowed first [] first
  | next {steps : List (RunStep Response)} {world : World} {served : Served Response}
      (before : Ran settings authn allowed first steps world)
      (isAllowed : allowed served.request world) :
      Ran settings authn allowed first
        (steps ++ [⟨served.request, world, (served.run settings authn world).2.db⟩])
        (served.run settings authn world).2

/-- The step gave the role to the user, who created the project with it or was
promoted by an owner. -/
def RunStep.Grants (step : RunStep Response) (userID : Bytes) (projectID : Uuid) (role : Role) : Prop :=
  step.after.role? userID projectID = some role ∧
    (step.request.CreatesFor step.before userID ∨ step.request.IsByOwner step.before projectID)

end Runs

/-! ### A viewer who becomes owner -/

/-- A project of one user with another one as its viewer, who has a session. -/
def viewerWorld : World :=
  { newProjectWorld with
    db := { newProjectWorld.db with
      users := ⟨[⟨[98], "b", "b"⟩, ⟨[97], "a", "a"⟩], by simp [User.conflicts]⟩
      access := ⟨[⟨[98], .copy [1], .owner⟩, ⟨[97], .copy [1], .viewer⟩],
        by simp [ProjectAccess.conflicts]⟩ } }

def takeOver : Served Unit where
  request :=
    ⟨⟨some "s", some "01000000000000000000000000000000"⟩,
      .project (.updateProjectAccess "61" (some "owner"))⟩
  circumstances _ := {}

theorem createShop_within : ¬ createShop.request.Oversteps userWorld := by
  rintro ⟨userID, action, -, performs, oversteps⟩
  cases performs <;> exact oversteps

end Portal

end Litefunctions
