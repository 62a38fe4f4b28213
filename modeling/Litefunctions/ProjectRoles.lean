import Litefunctions.PortalQueries

/-!
# Roles of users in projects

The access rows of the database give each user at most one role in a project.
Seen as a function they change in four ways: by creating a project, joining
one, updating a role and revoking it.  The statements on access rows are
related to these changes here.
-/

namespace Litefunctions

namespace Portal

/-- The role of each user in each project. -/
abbrev Roles := Bytes → Uuid → Option Role

namespace Roles

def set (roles : Roles) (userID : Bytes) (projectID : Uuid) (value : Option Role) : Roles :=
  fun user project => if user = userID ∧ project = projectID then value else roles user project

@[simp]
theorem set_self (roles : Roles) (userID : Bytes) (projectID : Uuid) (value : Option Role) :
    roles.set userID projectID value userID projectID = value :=
  if_pos ⟨rfl, rfl⟩

theorem set_of_ne {roles : Roles} {userID user : Bytes} {projectID project : Uuid}
    {value : Option Role} (other : ¬ (user = userID ∧ project = projectID)) :
    roles.set userID projectID value user project = roles user project :=
  if_neg other

theorem set_eq_some_iff {roles : Roles} {userID user : Bytes} {projectID project : Uuid}
    {value : Option Role} {role : Role} :
    roles.set userID projectID value user project = some role ↔
      (user = userID ∧ project = projectID ∧ value = some role) ∨
        (¬ (user = userID ∧ project = projectID) ∧ roles user project = some role) := by
  unfold set
  split
  · next same => simp [same]
  · next other => simp [other, ← and_assoc]

end Roles

/-- What a request does to the roles. -/
inductive RoleAction where
  | keep
  | create (userID : Bytes) (projectID : Uuid)
  | join (userID : Bytes) (projectID : Uuid)
  | update (userID : Bytes) (projectID : Uuid) (role : Role)
  | revoke (userID : Bytes) (projectID : Uuid)
  deriving DecidableEq, Repr

/-- The roles after the action: joining keeps the role of a member, only
members are updated, and owners are not revoked. -/
def RoleAction.apply (roles : Roles) : RoleAction → Roles
  | keep => roles
  | create userID projectID => roles.set userID projectID (some .owner)
  | join userID projectID =>
      match roles userID projectID with
      | none => roles.set userID projectID (some .viewer)
      | some _ => roles
  | update userID projectID role =>
      match roles userID projectID with
      | none => roles
      | some _ => roles.set userID projectID (some role)
  | revoke userID projectID =>
      if roles userID projectID = some .owner then roles else roles.set userID projectID none

section Apply

variable (roles : Roles) (userID : Bytes) (projectID : Uuid)

theorem RoleAction.apply_join :
    (join userID projectID).apply roles = roles ∨
      (roles userID projectID = none ∧
        (join userID projectID).apply roles = roles.set userID projectID (some .viewer)) := by
  cases found : roles userID projectID with
  | none => exact .inr ⟨rfl, by simp only [apply, found]⟩
  | some role => exact .inl (by simp only [apply, found])

theorem RoleAction.apply_update (role : Role) :
    (update userID projectID role).apply roles = roles ∨
      ((roles userID projectID).isSome ∧
        (update userID projectID role).apply roles = roles.set userID projectID (some role)) := by
  cases found : roles userID projectID with
  | none => exact .inl (by simp only [apply, found])
  | some old => exact .inr ⟨rfl, by simp only [apply, found]⟩

theorem RoleAction.apply_revoke :
    (revoke userID projectID).apply roles = roles ∨
      (roles userID projectID ≠ some .owner ∧
        (revoke userID projectID).apply roles = roles.set userID projectID none) := by
  by_cases isOwner : roles userID projectID = some .owner
  · exact .inl (if_pos isOwner)
  · exact .inr ⟨isOwner, if_neg isOwner⟩

end Apply

/-! ### Access rows -/

section AccessRows

variable {db : Database} {userID : Bytes} {projectID : Uuid} {role : Role}

theorem ProjectAccess.conflicts_comm (first second : ProjectAccess) :
    first.conflicts second = second.conflicts first := by
  simp only [ProjectAccess.conflicts, eq_comm]

theorem access?_eq_some_iff {row : ProjectAccess} :
    db.access? userID projectID = some row ↔
      row ∈ db.access.rows ∧ row.userID = userID ∧ row.projectID = projectID := by
  constructor
  · intro found
    have ⟨member, isRow⟩ := Table.find?_some found
    exact ⟨member, of_decide_eq_true isRow⟩
  · rintro ⟨member, rfl, rfl⟩
    refine Table.find?_eq_some ProjectAccess.conflicts_comm member (decide_eq_true ⟨rfl, rfl⟩) ?_
    exact fun other isOther => isOther

/-- Users have the roles of their rows. -/
theorem role?_eq_some_iff :
    db.role? userID projectID = some role ↔ ⟨userID, projectID, role⟩ ∈ db.access.rows := by
  simp only [Database.role?, Option.map_eq_some_iff, access?_eq_some_iff]
  constructor
  · rintro ⟨row, ⟨member, rfl, rfl⟩, rfl⟩
    exact member
  · intro member
    exact ⟨_, ⟨member, rfl, rfl⟩, rfl⟩

theorem role?_eq_none_iff : db.role? userID projectID = none ↔ db.access? userID projectID = none := by
  simp [Database.role?]

/-- Only the roles change, as the action says. -/
structure ChangesRoles (db after : Database) (action : RoleAction) : Prop where
  projects : after.projects = db.projects
  roles : after.role? = action.apply db.role?

theorem ChangesRoles.refl (db : Database) : ChangesRoles db db .keep :=
  ⟨rfl, rfl⟩

private theorem roles_insert {access : Table ProjectAccess ProjectAccess.conflicts}
    {row : ProjectAccess} (inserted : db.access.insert row = some access)
    (absent : db.role? row.userID row.projectID = none) :
    ({ db with access } : Database).role? =
      Roles.set db.role? row.userID row.projectID (some row.role) := by
  funext user project
  apply Option.ext
  intro role
  rw [role?_eq_some_iff, Roles.set_eq_some_iff, Table.mem_insert inserted, role?_eq_some_iff]
  constructor
  · rintro (member | rfl)
    · refine .inr ⟨?_, member⟩
      rintro ⟨rfl, rfl⟩
      rw [role?_eq_some_iff.mpr member] at absent
      cases absent
    · exact .inl ⟨rfl, rfl, rfl⟩
  · rintro (⟨rfl, rfl, isRole⟩ | ⟨-, member⟩)
    · rw [← Option.some.inj isRole]
      exact .inr rfl
    · exact .inl member

theorem insertAccess_cases {row : ProjectAccess}
    (absent : db.role? row.userID row.projectID = none) :
    (∃ err, AccessQuery.insertAccess row db = (.error err, db)) ∨
      ∃ after, AccessQuery.insertAccess row db = (.ok (), after) ∧ after.projects = db.projects ∧
        after.role? = Roles.set db.role? row.userID row.projectID (some row.role) := by
  unfold AccessQuery.insertAccess
  split
  · exact .inl ⟨_, rfl⟩
  · split
    · exact .inl ⟨_, rfl⟩
    · next access inserted => exact .inr ⟨_, rfl, rfl, roles_insert inserted absent⟩

theorem setRole_cases (present : (db.role? userID projectID).isSome) :
    (∃ err, AccessQuery.setRole userID projectID role db = (.error err, db)) ∨
      ∃ after, AccessQuery.setRole userID projectID role db = (.ok (), after) ∧
        after.projects = db.projects ∧
        after.role? = Roles.set db.role? userID projectID (some role) := by
  unfold AccessQuery.setRole
  split
  · exact .inl ⟨_, rfl⟩
  · next access modified =>
      refine .inr ⟨_, rfl, rfl, ?_⟩
      obtain ⟨old, isOld⟩ := Option.isSome_iff_exists.mp present
      have oldMember := role?_eq_some_iff.mp isOld
      funext user project
      apply Option.ext
      intro given
      rw [role?_eq_some_iff, Roles.set_eq_some_iff, Table.rows_modify modified, List.mem_map,
        role?_eq_some_iff]
      constructor
      · rintro ⟨row, member, isRow⟩
        split at isRow
        · next selected =>
            obtain ⟨rfl, rfl⟩ := of_decide_eq_true selected
            obtain ⟨rfl, rfl, rfl⟩ := ProjectAccess.mk.inj isRow
            exact .inl ⟨rfl, rfl, rfl⟩
        · next unselected =>
            rw [isRow] at member unselected
            exact .inr ⟨by simpa using unselected, member⟩
      · rintro (⟨rfl, rfl, isRole⟩ | ⟨other, member⟩)
        · obtain rfl := Option.some.inj isRole
          exact ⟨_, oldMember, by simp⟩
        · exact ⟨_, member, if_neg (by simpa using other)⟩

theorem addProjectOwner_cases (moment : Moment) (db : Database) (userID : Bytes)
    (projectID : Uuid) :
    (∃ err, (AccessQuery.addProjectOwner userID projectID).execute moment db = (.error err, db)) ∨
      ∃ after, (AccessQuery.addProjectOwner userID projectID).execute moment db = (.ok (), after) ∧
        ChangesRoles db after (.create userID projectID) := by
  simp only [AccessQuery.execute]
  cases found : db.access? userID projectID with
  | none =>
      have absent := role?_eq_none_iff.mpr found
      rcases @insertAccess_cases db ⟨userID, projectID, .owner⟩ absent with failed | ⟨after, isOk, effect⟩
      · exact .inl failed
      · exact .inr ⟨after, isOk, effect.1, effect.2⟩
  | some row =>
      have present : (db.role? userID projectID).isSome := by simp [Database.role?, found]
      rcases @setRole_cases db _ _ .owner present with failed | ⟨after, isOk, effect⟩
      · exact .inl failed
      · exact .inr ⟨after, isOk, effect.1, effect.2⟩

theorem addViewerToProject_cases (moment : Moment) (db : Database) (userID : Bytes)
    (projectID : Uuid) :
    (∃ err, (AccessQuery.addViewerToProject userID projectID).execute moment db =
        (.error err, db)) ∨
      ∃ after, (AccessQuery.addViewerToProject userID projectID).execute moment db =
          (.ok (), after) ∧ ChangesRoles db after (.join userID projectID) := by
  simp only [AccessQuery.execute]
  cases found : db.access? userID projectID with
  | none =>
      have absent := role?_eq_none_iff.mpr found
      rcases @insertAccess_cases db ⟨userID, projectID, .viewer⟩ absent with
        failed | ⟨after, isOk, effect⟩
      · exact .inl failed
      · exact .inr ⟨after, isOk, effect.1, by rw [effect.2, RoleAction.apply, absent]⟩
  | some row =>
      have present : db.role? userID projectID = some row.role := by simp [Database.role?, found]
      exact .inr ⟨db, rfl, rfl, by rw [RoleAction.apply, present]⟩

/-- What an update of a role can do. -/
theorem updateUserProjectRole_changes (moment : Moment) (db : Database) (projectID : Uuid)
    (user : Option Bytes) (text : String) :
    ∃ action, ChangesRoles db
        ((AccessQuery.updateUserProjectRole user projectID text).execute moment db).2 action ∧
      (action = .keep ∨ ∃ userID role, user = some userID ∧ Role.ofText text = some role ∧
        action = .update userID projectID role) := by
  simp only [AccessQuery.execute]
  cases user with
  | none => exact ⟨.keep, .refl db, .inl rfl⟩
  | some userID =>
      simp only
      cases found : db.access? userID projectID with
      | none => exact ⟨.keep, .refl db, .inl rfl⟩
      | some row =>
          simp only
          cases isRole : Role.ofText text with
          | none => exact ⟨.keep, .refl db, .inl rfl⟩
          | some role =>
              have present : db.role? userID projectID = some row.role := by
                simp [Database.role?, found]
              have isMember : (db.role? userID projectID).isSome := by rw [present]; rfl
              rcases @setRole_cases db _ _ role isMember with ⟨err, failed⟩ | ⟨after, isOk, effect⟩
              · simp only [failed]
                exact ⟨.keep, .refl db, .inl rfl⟩
              · simp only [isOk]
                refine ⟨.update userID projectID role, ⟨effect.1, ?_⟩, .inr ⟨_, _, rfl, rfl, rfl⟩⟩
                rw [effect.2, RoleAction.apply, present]

/-- What a revocation can do. -/
theorem revokeProjectAccess_changes (moment : Moment) (db : Database) (projectID : Uuid)
    (user : Option Bytes) :
    ∃ action, ChangesRoles db
        ((AccessQuery.revokeProjectAccess projectID user).execute moment db).2 action ∧
      (action = .keep ∨ ∃ userID, user = some userID ∧ action = .revoke userID projectID) := by
  simp only [AccessQuery.execute]
  cases user with
  | none => exact ⟨.keep, .refl db, .inl rfl⟩
  | some userID =>
      refine ⟨.revoke userID projectID, ⟨rfl, ?_⟩, .inr ⟨_, rfl, rfl⟩⟩
      funext user project
      apply Option.ext
      intro role
      rw [role?_eq_some_iff, Table.mem_remove, RoleAction.apply]
      split
      · next isOwner =>
          rw [role?_eq_some_iff]
          apply and_iff_left_of_imp
          intro member
          simp only [decide_eq_false_iff_not]
          rintro ⟨rfl, rfl, notOwner⟩
          rw [role?_eq_some_iff.mpr member] at isOwner
          exact notOwner (Option.some.inj isOwner)
      · next notOwner =>
          rw [Roles.set_eq_some_iff, role?_eq_some_iff]
          simp only [decide_eq_false_iff_not, reduceCtorEq, and_false, false_or]
          constructor
          · rintro ⟨member, kept⟩
            refine ⟨?_, member⟩
            rintro ⟨rfl, rfl⟩
            refine kept ⟨rfl, rfl, ?_⟩
            rintro rfl
            exact notOwner (role?_eq_some_iff.mpr member)
          · rintro ⟨other, member⟩
            exact ⟨member, fun selected => other ⟨selected.2.1, selected.1⟩⟩

end AccessRows

end Portal

end Litefunctions
