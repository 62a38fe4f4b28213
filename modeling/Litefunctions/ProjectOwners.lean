import Litefunctions.FunctionMirrors
import Litefunctions.RoleRequests

/-!
# Owners of projects

Revoking spares owners, but updating a role does not: the only owner of a
project can become a viewer, and then nobody can invite to it any more.  In
runs without such updates every project keeps an owner.
-/

namespace Litefunctions

namespace Portal

/-- Some user is owner of the project. -/
def Roles.HasOwner (roles : Roles) (projectID : Uuid) : Prop :=
  ∃ userID, roles userID projectID = some .owner

/-- Every project has an owner. -/
def Database.AllOwned (db : Database) : Prop :=
  ∀ project ∈ db.projects.rows, Roles.HasOwner db.role? project.id

/-- The action gives another role to the only owner of the project. -/
def RoleAction.DemotesLastOwner (roles : Roles) (projectID : Uuid) : RoleAction → Prop
  | update userID changed role =>
      changed = projectID ∧ role ≠ .owner ∧ roles userID projectID = some .owner ∧
        ∀ other, roles other projectID = some .owner → other = userID
  | _ => False

namespace Roles

variable {roles : Roles} {projectID : Uuid}

private theorem hasOwner_set_owner (hasOwner : roles.HasOwner projectID) (userID : Bytes)
    (changed : Uuid) : (roles.set userID changed (some .owner)).HasOwner projectID := by
  obtain ⟨owner, isOwner⟩ := hasOwner
  apply Exists.intro owner
  rw [set_eq_some_iff]
  by_cases same : owner = userID ∧ projectID = changed
  · exact .inl ⟨same.1, same.2, rfl⟩
  · exact .inr ⟨same, isOwner⟩

private theorem hasOwner_set_of_ne {owner userID : Bytes} {changed : Uuid} {value : Option Role}
    (isOwner : roles owner projectID = some .owner)
    (other : ¬ (owner = userID ∧ projectID = changed)) :
    (roles.set userID changed value).HasOwner projectID :=
  ⟨owner, by rw [set_of_ne other, isOwner]⟩

/-- A project that has an owner keeps one unless the last one is demoted. -/
theorem hasOwner_apply {action : RoleAction} (hasOwner : roles.HasOwner projectID)
    (keepsLast : ¬ action.DemotesLastOwner roles projectID) :
    (action.apply roles).HasOwner projectID := by
  obtain ⟨owner, isOwner⟩ := hasOwner
  cases action with
  | keep => exact ⟨owner, isOwner⟩
  | create userID changed => exact hasOwner_set_owner ⟨owner, isOwner⟩ userID changed
  | join userID changed =>
      rcases RoleAction.apply_join roles userID changed with same | ⟨absent, changes⟩
      · exact ⟨owner, by rw [same, isOwner]⟩
      · rw [changes]
        apply hasOwner_set_of_ne isOwner
        rintro ⟨rfl, rfl⟩
        rw [isOwner] at absent
        cases absent
  | update userID changed role =>
      rcases RoleAction.apply_update roles userID changed role with same | ⟨-, changes⟩
      · exact ⟨owner, by rw [same, isOwner]⟩
      · rw [changes]
        by_cases toOwner : role = .owner
        · rw [toOwner]
          exact hasOwner_set_owner ⟨owner, isOwner⟩ userID changed
        · by_contra lost
          refine keepsLast ⟨?_, toOwner, ?_, fun other otherOwner => ?_⟩
          all_goals by_contra different
          · exact lost (hasOwner_set_of_ne isOwner fun same => different same.2.symm)
          · refine lost (hasOwner_set_of_ne isOwner ?_)
            rintro ⟨rfl, -⟩
            exact different isOwner
          · exact lost (hasOwner_set_of_ne otherOwner fun same => different same.1)
  | revoke userID changed =>
      rcases RoleAction.apply_revoke roles userID changed with same | ⟨notOwner, changes⟩
      · exact ⟨owner, by rw [same, isOwner]⟩
      · rw [changes]
        refine hasOwner_set_of_ne isOwner ?_
        rintro ⟨rfl, rfl⟩
        exact notOwner isOwner

theorem hasOwner_create (userID : Bytes) :
    ((RoleAction.create userID projectID).apply roles).HasOwner projectID :=
  ⟨userID, set_self ..⟩

end Roles

section Requests

variable {Response : Type} {settings : Settings} {authn : Passkeys.WebAuthn Response}
variable {first world : World}

/-- A user with a valid session requests an update that takes the role of the
only owner of an existing project. -/
def Request.DemotesLastOwner (request : Request Response) (world : World) : Prop :=
  ∃ userID action, request.cookies.IsOf world userID ∧
    Performs request.cookies userID request.route action ∧
    ∃ project ∈ world.db.projects.rows, action.DemotesLastOwner world.db.role? project.id

theorem allOwned_of_acts {request : Request Response} {after : Database}
    (owned : world.db.AllOwned) (keepsLast : ¬ request.DemotesLastOwner world)
    (acts : ActsOnRoles request world after) : after.AllOwned := by
  obtain ⟨userID, action, acted, isOf⟩ := acts
  intro project member
  rw [acted.roles]
  rcases acted.projects project member with old | rfl
  · apply Roles.hasOwner_apply (owned project old)
    intro demotes
    rcases isOf with rfl | isOf
    · exact demotes
    · exact keepsLast ⟨userID, action, isOf, acted.performs, project, old, demotes⟩
  · exact Roles.hasOwner_create userID

/-- In runs of requests that demote no last owner, every project has an owner. -/
theorem allOwned_of_reached (owned : first.db.AllOwned)
    (reached : Reached settings authn (fun served before => ¬ served.request.DemotesLastOwner before)
      first world) : world.db.AllOwned := by
  induction reached with
  | start => exact owned
  | @next before served reached keepsLast ih =>
      have acts := (serve_actsOnRoles settings authn before served.request).ends served.circumstances
      exact allOwned_of_acts ih keepsLast acts

/-- One of the four requests on members; roles are updated and revoked by
owners of the project only. -/
def Request.ByOwners (request : Request Response) (world : World) : Prop :=
  match request.route with
  | .user (.createProject _) | .user (.joinProjectByInvite _) => True
  | .project (.updateProjectAccess _ _) | .project (.revokeProjectAccess _) =>
      ∃ userID projectID, request.cookies.IsOf world userID ∧ request.cookies.IsIn projectID ∧
        world.db.role? userID projectID = some .owner
  | _ => False

end Requests

/-! ### An owner who steps down -/

/-- A world without projects, with a user who has a session. -/
def userWorld : World :=
  { newProjectWorld with db := { newProjectWorld.db with projects := .empty } }

def createShop : Served Unit where
  request := ⟨⟨some "s", none⟩, .user (.createProject (some "shop"))⟩
  circumstances _ := {}

/-- The owner of the project becomes a viewer. -/
def stepDown : Served Unit where
  request :=
    ⟨⟨some "s", some "00000000000000000000000000000000"⟩,
      .project (.updateProjectAccess "61" (some "viewer"))⟩
  circumstances _ := {}

def afterShop : World :=
  (createShop.run exampleSettings refusingAuthn userWorld).2

theorem afterShop_owner : afterShop.db.role? [97] (.copy []) = some .owner := by
  decide +kernel

theorem stepDown_byOwners : stepDown.request.ByOwners afterShop := by
  refine ⟨[97], .copy [], ⟨⟨"s", [97], 10⟩, ?_, rfl, rfl, ?_⟩, ?_, afterShop_owner⟩
  · have sessions : afterShop.db.userSessions.rows = [⟨"s", [97], 10⟩] := by decide +kernel
    rw [sessions]
    exact List.mem_cons_self
  · decide +kernel
  · show HexText.decode "00000000000000000000000000000000" = some (Uuid.copy []).val
    decide +kernel

theorem not_allOwned_of_stepDown :
    ¬ ∀ world, Reached exampleSettings refusingAuthn (fun served before => served.request.ByOwners before)
      userWorld world → world.db.AllOwned := by
  intro owned
  have shop : Reached exampleSettings refusingAuthn
      (fun served before => served.request.ByOwners before) userWorld afterShop := .next .start trivial
  have reached := Reached.next shop stepDown_byOwners
  have rows : (stepDown.run exampleSettings refusingAuthn afterShop).2.db.access.rows =
      [⟨[97], .copy [], .viewer⟩] := by decide +kernel
  have projects : (stepDown.run exampleSettings refusingAuthn afterShop).2.db.projects.rows =
      [⟨.copy [], "shop", [97], 0⟩] := by decide +kernel
  obtain ⟨userID, isOwner⟩ := owned _ reached ⟨.copy [], "shop", [97], 0⟩
    (projects ▸ List.mem_cons_self)
  have member := role?_eq_some_iff.mp isOwner
  rw [rows] at member
  simp at member

theorem allOwned_of_reached_shop : afterShop.db.AllOwned := by
  have owned : userWorld.db.AllOwned := fun project member => nomatch member
  have keepsLast : ¬ createShop.request.DemotesLastOwner userWorld := by
    rintro ⟨userID, action, -, -, project, member, -⟩
    cases member
  exact allOwned_of_reached owned (.next .start keepsLast)

end Portal

end Litefunctions
