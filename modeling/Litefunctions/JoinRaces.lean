import Litefunctions.JoinTransactions
import Litefunctions.ProjectRoles

/-!
# Races for an invite

However the statements of joins are interleaved, and whichever of them fail, an
invite is used up by one committed transaction at most.  The lock that reading
an invite takes carries the argument: the row stays as it was read until its
transaction ends, and an invite that is used up is never read again.
-/

namespace Litefunctions

namespace Portal

/-- Every row with the id of this invite is marked as used. -/
def UsedUp (db : Database) (id : Uuid) : Prop :=
  ∀ row ∈ db.invites.rows, row.id = id → row.usedAt.isSome

/-! ### What writes do to the database -/

namespace RowWrite

variable {db : Database} {startedAt : Int}

theorem access?_insertAccess (row : ProjectAccess) (userID : Bytes) (projectID : Uuid) :
    ((insertAccess row).apply startedAt db).access? userID projectID =
      (db.access? userID projectID).or
        (if row.userID = userID ∧ row.projectID = projectID then some row else none) := by
  cases inserted : db.access.insert row with
  | none =>
      have sameDb : (insertAccess row).apply startedAt db = db := by simp only [apply, inserted]
      rw [sameDb]
      split
      · next same =>
          obtain ⟨rfl, rfl⟩ := same
          have present : (db.access? row.userID row.projectID).isSome := by
            by_contra absent
            rw [Option.not_isSome_iff_eq_none] at absent
            have fits : ∀ other ∈ db.access.rows, other.conflicts row = false := by
              intro other member
              have unwanted := List.find?_eq_none.mp absent other member
              simpa [ProjectAccess.conflicts] using unwanted
            rw [Table.insert, dif_pos fits] at inserted
            cases inserted
          obtain ⟨found, foundEq⟩ := Option.isSome_iff_exists.mp present
          rw [foundEq, Option.some_or]
      · rw [Option.or_none]
  | some access =>
      have newDb : (insertAccess row).apply startedAt db = { db with access } := by
        simp only [apply, inserted]
      rw [newDb, Database.access?, Table.find?_insert inserted, Database.access?]
      simp only [decide_eq_true_eq]

theorem access_markUsed (id : Uuid) : ((markUsed id).apply startedAt db).access = db.access := by
  simp only [apply]
  split
  · rfl
  · rfl

/-- No write changes the row of a member. -/
theorem access?_apply_of_eq_some (write : RowWrite) {userID : Bytes} {projectID : Uuid}
    {row : ProjectAccess} (found : db.access? userID projectID = some row) :
    (write.apply startedAt db).access? userID projectID = some row := by
  cases write with
  | insertAccess added => rw [access?_insertAccess, found, Option.some_or]
  | markUsed id => rw [Database.access?, access_markUsed, ← Database.access?, found]

theorem access?_apply_of_ne (write : RowWrite) {userID : Bytes} {projectID : Uuid}
    (other : ∀ row, write = insertAccess row →
      ¬ (row.userID = userID ∧ row.projectID = projectID)) :
    (write.apply startedAt db).access? userID projectID = db.access? userID projectID := by
  cases write with
  | insertAccess added =>
      rw [access?_insertAccess, if_neg, Option.or_none]
      exact other added rfl
  | markUsed id => rw [Database.access?, access_markUsed, ← Database.access?]

theorem invites_insertAccess (row : ProjectAccess) :
    ((insertAccess row).apply startedAt db).invites = db.invites := by
  simp only [apply]
  split
  · rfl
  · rfl

theorem rows_markUsed (id : Uuid) :
    ((markUsed id).apply startedAt db).invites.rows = db.invites.rows.map fun row =>
      if row.id = id then { row with usedAt := some startedAt } else row := by
  cases modified : db.invites.modify (·.id = id) fun row =>
      { row with usedAt := some startedAt } with
  | none =>
      -- Marking changes neither the ids nor the codes.
      have fits : (db.invites.rows.map fun row => if decide (row.id = id) = true then
          { row with usedAt := some startedAt } else row).Pairwise
            fun first second => ProjectInvite.conflicts first second = false := by
        rw [List.pairwise_map]
        refine db.invites.distinct.imp fun {first second} apart => ?_
        have sameConflicts : ∀ row : ProjectInvite,
            (if decide (row.id = id) = true then { row with usedAt := some startedAt } else row).id =
              row.id ∧
            (if decide (row.id = id) = true then
              { row with usedAt := some startedAt } else row).inviteCode = row.inviteCode := by
          intro row
          split
          · exact ⟨rfl, rfl⟩
          · exact ⟨rfl, rfl⟩
        unfold ProjectInvite.conflicts at apart ⊢
        rw [(sameConflicts first).1, (sameConflicts first).2, (sameConflicts second).1,
          (sameConflicts second).2]
        exact apart
      simp only [Table.modify, dif_pos fits] at modified
      cases modified
  | some invites =>
      simp only [apply, modified, Table.rows_modify modified, decide_eq_true_eq]

/-- A row stays as it is unless a write marks it. -/
theorem mem_invites_apply (write : RowWrite) {row : ProjectInvite}
    (member : row ∈ db.invites.rows) (unmarked : write ≠ markUsed row.id) :
    row ∈ (write.apply startedAt db).invites.rows := by
  cases write with
  | insertAccess added => rwa [invites_insertAccess]
  | markUsed id =>
      rw [rows_markUsed]
      have otherId : row.id ≠ id := by
        rintro rfl
        exact unmarked rfl
      exact List.mem_map.mpr ⟨row, member, if_neg otherId⟩

theorem usedUp_apply (write : RowWrite) {id : Uuid} (used : UsedUp db id) :
    UsedUp (write.apply startedAt db) id := by
  intro row member sameId
  cases write with
  | insertAccess added =>
      rw [invites_insertAccess] at member
      exact used row member sameId
  | markUsed marked =>
      rw [rows_markUsed] at member
      obtain ⟨old, oldMember, rfl⟩ := List.mem_map.mp member
      split
      · rfl
      · next otherId =>
          rw [if_neg otherId] at sameId
          exact used old oldMember sameId

theorem usedUp_markUsed (id : Uuid) : UsedUp ((markUsed id).apply startedAt db) id := by
  intro row member sameId
  rw [rows_markUsed] at member
  obtain ⟨old, oldMember, rfl⟩ := List.mem_map.mp member
  split
  · rfl
  · next otherId =>
      rw [if_neg otherId] at sameId
      exact absurd sameId otherId

end RowWrite

namespace OpenTx

variable {tx : OpenTx} {db : Database}

/-- A property of the database that every write of the transaction keeps. -/
theorem view_induction {motive : Database → Prop} (nil : motive db)
    (each : ∀ write ∈ tx.writes, ∀ before, motive before →
      motive (write.apply tx.startedAt before)) : motive (tx.view db) := by
  obtain ⟨startedAt, reads, writes⟩ := tx
  show motive (writes.foldl (fun db write => write.apply startedAt db) db)
  induction writes generalizing db with
  | nil => exact nil
  | cons write writes ih =>
      rw [List.foldl_cons]
      apply ih (each write List.mem_cons_self db nil)
      intro later member
      exact each later (List.mem_cons_of_mem _ member)

theorem access?_view_of_eq_some {userID : Bytes} {projectID : Uuid} {row : ProjectAccess}
    (found : db.access? userID projectID = some row) :
    (tx.view db).access? userID projectID = some row :=
  view_induction (motive := fun view => view.access? userID projectID = some row) found
    fun write _ _ before => write.access?_apply_of_eq_some before

theorem access?_view_of_ne {userID : Bytes} {projectID : Uuid}
    (other : ∀ row, .insertAccess row ∈ tx.writes →
      ¬ (row.userID = userID ∧ row.projectID = projectID)) :
    (tx.view db).access? userID projectID = db.access? userID projectID := by
  refine view_induction (motive := fun view =>
    view.access? userID projectID = db.access? userID projectID) rfl ?_
  intro write member before same
  rw [write.access?_apply_of_ne, same]
  rintro row rfl
  exact other row member

theorem mem_invites_view {row : ProjectInvite} (member : row ∈ db.invites.rows)
    (unused : ¬ tx.Consumes row.id) : row ∈ (tx.view db).invites.rows := by
  apply view_induction (motive := fun view => row ∈ view.invites.rows) member
  intro write writeMember before rowMember
  apply write.mem_invites_apply rowMember
  rintro rfl
  exact unused writeMember

theorem usedUp_view_of_usedUp {id : Uuid} (used : UsedUp db id) : UsedUp (tx.view db) id :=
  view_induction (motive := fun view => UsedUp view id) used
    fun write _ _ before => write.usedUp_apply before

theorem usedUp_view {id : Uuid} (consumes : tx.Consumes id) : UsedUp (tx.view db) id := by
  obtain ⟨startedAt, reads, writes⟩ := tx
  obtain ⟨early, late, writesEq⟩ := List.append_of_mem (show RowWrite.markUsed id ∈ writes from consumes)
  subst writesEq
  show UsedUp ((early ++ .markUsed id :: late).foldl _ db) id
  rw [List.foldl_append, List.foldl_cons]
  exact @usedUp_view_of_usedUp ⟨startedAt, reads, late⟩ _ _ (RowWrite.usedUp_markUsed id)

/-- Without marks, the transaction sees the committed invites. -/
theorem invites_view (unmarked : ∀ id, ¬ tx.Consumes id) :
    (tx.view db).invites = db.invites := by
  refine view_induction (motive := fun view => view.invites = db.invites) rfl ?_
  intro write member before same
  cases write with
  | insertAccess row => rw [RowWrite.invites_insertAccess, same]
  | markUsed id => exact absurd member (unmarked id)

end OpenTx

namespace TxShared

/-! ### What a transaction relies on -/

/-- What another transaction has locked or inserted stays as it is. -/
structure Leaves (before : TxShared) (tid : Nat) (after : TxShared) : Prop where
  openTx : after.openTx tid = before.openTx tid
  held : ∀ lockable, before.holder lockable = some tid → after.holder lockable = some tid
  invites : ∀ row ∈ before.db.invites.rows, before.holder (.invite row.id) = some tid →
    row ∈ after.db.invites.rows
  access : ∀ userID projectID, before.holder (.access userID projectID) = some tid →
    before.db.access? userID projectID = none → after.db.access? userID projectID = none

/-- An open transaction holds what it has read and written. -/
structure Sound (shared : TxShared) (tid : Nat) (tx : OpenTx) : Prop where
  reads : ∀ read ∈ tx.reads, shared.holder (.invite read.invite.id) = some tid ∧
    read.invite ∈ shared.db.invites.rows ∧ read.invite.usedAt = none
  inserts : ∀ row, .insertAccess row ∈ tx.writes →
    shared.holder (.access row.userID row.projectID) = some tid ∧
      shared.db.access? row.userID row.projectID = none
  marks : ∀ id, tx.Consumes id → ∃ read ∈ tx.reads, read.invite.id = id

variable {shared after : TxShared} {tid other : Nat} {tx : OpenTx}

theorem Leaves.sound (leaves : shared.Leaves tid after) (sound : shared.Sound tid tx) :
    after.Sound tid tx where
  reads read member := by
    have ⟨held, rowMember, unused⟩ := sound.reads read member
    exact ⟨leaves.held _ held, leaves.invites _ rowMember held, unused⟩
  inserts row member := by
    have ⟨held, absent⟩ := sound.inserts row member
    exact ⟨leaves.held _ held, leaves.access _ _ held absent⟩
  marks := sound.marks

theorem leaves_refl : shared.Leaves tid shared :=
  ⟨rfl, fun _ held => held, fun _ member _ => member, fun _ _ _ absent => absent⟩

theorem leaves_tick (clock : Int) : shared.Leaves tid { shared with clock } :=
  ⟨rfl, fun _ held => held, fun _ member _ => member, fun _ _ _ absent => absent⟩

theorem leaves_setTx (different : other ≠ tid) : shared.Leaves other (shared.setTx tid tx) :=
  ⟨Function.update_of_ne different _ _, fun _ held => held, fun _ member _ => member,
    fun _ _ _ absent => absent⟩

theorem leaves_holding {lockable : Lockable} (different : other ≠ tid)
    (free : ¬ shared.HeldElsewhere tid lockable) :
    shared.Leaves other (shared.holding tid lockable tx) where
  openTx := Function.update_of_ne different _ _
  held otherLockable held := by
    have notSame : otherLockable ≠ lockable := by
      rintro rfl
      exact free ⟨other, held, different⟩
    show Function.update shared.holder lockable (some tid) otherLockable = some other
    rw [Function.update_of_ne notSame, held]
  invites _ member _ := member
  access _ _ _ absent := absent

theorem leaves_close (different : other ≠ tid) : shared.Leaves other (shared.close tid) where
  openTx := Function.update_of_ne different _ _
  held lockable held := by
    have notOwn : shared.holder lockable ≠ some tid := by
      rw [held]
      exact fun same => different (Option.some.inj same)
    show (if shared.holder lockable = some tid then none else shared.holder lockable) = some other
    rw [if_neg notOwn, held]
  invites _ member _ := member
  access _ _ _ absent := absent

/-- A commit changes no row that another transaction holds. -/
theorem leaves_commit (different : other ≠ tid) (sound : shared.Sound tid tx) :
    shared.Leaves other (shared.commit tid tx) where
  openTx := (leaves_close different).openTx
  held := (leaves_close different).held
  invites row member held := by
    apply OpenTx.mem_invites_view member
    intro consumes
    obtain ⟨read, readMember, sameId⟩ := sound.marks row.id consumes
    have own := (sound.reads read readMember).1
    rw [sameId, held] at own
    exact different (Option.some.inj own)
  access userID projectID held absent := by
    refine (OpenTx.access?_view_of_ne ?_).trans absent
    rintro row member ⟨rfl, rfl⟩
    have own := (sound.inserts row member).1
    rw [held] at own
    exact different (Option.some.inj own)

theorem openTx_close : (shared.close tid).openTx tid = none :=
  Function.update_self _ _ _

theorem openTx_commit : (shared.commit tid tx).openTx tid = none :=
  Function.update_self _ _ _

theorem openTx_holding {lockable : Lockable} :
    (shared.holding tid lockable tx).openTx tid = some tx :=
  Function.update_self _ _ _

/-- A lock that is taken with a read or a write keeps a transaction sound. -/
theorem Sound.holding (sound : shared.Sound tid tx) (lockable : Lockable) (next : OpenTx)
    (reads : ∀ read ∈ next.reads, read ∈ tx.reads ∨ (lockable = .invite read.invite.id ∧
      read.invite ∈ shared.db.invites.rows ∧ read.invite.usedAt = none))
    (inserts : ∀ row, .insertAccess row ∈ next.writes → .insertAccess row ∈ tx.writes ∨
      (lockable = .access row.userID row.projectID ∧
        shared.db.access? row.userID row.projectID = none))
    (marks : ∀ id, next.Consumes id → ∃ read ∈ next.reads, read.invite.id = id) :
    (shared.holding tid lockable next).Sound tid next where
  reads read member := by
    have kept : ∀ held, shared.holder held = some tid →
        Function.update shared.holder lockable (some tid) held = some tid := by
      intro held own
      by_cases same : held = lockable
      · rw [same, Function.update_self]
      · rw [Function.update_of_ne same, own]
    rcases reads read member with old | ⟨rfl, rowMember, unused⟩
    · have ⟨held, rowMember, unused⟩ := sound.reads read old
      exact ⟨kept _ held, rowMember, unused⟩
    · exact ⟨Function.update_self _ _ _, rowMember, unused⟩
  inserts row member := by
    rcases inserts row member with old | ⟨rfl, absent⟩
    · have ⟨held, absent⟩ := sound.inserts row old
      refine ⟨?_, absent⟩
      show Function.update shared.holder lockable (some tid) _ = some tid
      by_cases same : Lockable.access row.userID row.projectID = lockable
      · rw [same, Function.update_self]
      · rw [Function.update_of_ne same, held]
    · exact ⟨Function.update_self _ _ _, absent⟩
  marks := marks

/-! ### The statements -/

section Statements

variable {fault : PortalCall.Fault}

/-- A statement is refused, or it runs and its answer may be lost. -/
theorem statement_eq_some {Value : Type} {response : Except DbError Value}
    {run : OpenTx → Option (Except DbError Value × TxShared)}
    (opened : shared.openTx tid = some tx)
    (executed : shared.statement tid fault run = some (response, after)) :
    (after = shared ∧ response = .error .failed) ∨
      ∃ result, run tx = some (result, after) ∧
        (response = result ∨ response = .error .failed) := by
  simp only [statement, opened] at executed
  split at executed
  · cases executed
    exact .inl ⟨rfl, rfl⟩
  · obtain ⟨⟨result, next⟩, ran, answered⟩ := Option.map_eq_some_iff.mp executed
    cases answered
    refine .inr ⟨result, ran, ?_⟩
    unfold answer
    split
    · exact .inl rfl
    · exact .inr rfl

theorem getValidInviteByCode_eq_some {code : String} {result : Except DbError ProjectInvite}
    (executed : shared.getValidInviteByCode tid code tx = some (result, after)) :
    (result = .error .noRows ∧ after = shared) ∨
      ∃ row ∈ (tx.view shared.db).invites.rows, row.usedAt = none ∧ tx.startedAt < row.expiresAt ∧
        ¬ shared.HeldElsewhere tid (.invite row.id) ∧ result = .ok row ∧
        after = shared.holding tid (.invite row.id)
          { tx with reads := tx.reads ++ [⟨row, shared.clock⟩] } := by
  unfold getValidInviteByCode at executed
  split at executed
  · cases executed
    exact .inl ⟨rfl, rfl⟩
  · next row found =>
      have ⟨member, isRow⟩ := Table.find?_some found
      obtain ⟨-, unused, unexpired⟩ := of_decide_eq_true isRow
      split at executed
      · cases executed
      · next free =>
          cases executed
          exact .inr ⟨row, member, unused, unexpired, free, rfl, rfl⟩

theorem addViewerToProject_eq_some {userID : Bytes} {projectID : Uuid}
    {result : Except DbError Unit}
    (executed : shared.addViewerToProject tid userID projectID tx = some (result, after)) :
    after = shared ∨
      ((tx.view shared.db).access? userID projectID = none ∧
        ¬ shared.HeldElsewhere tid (.access userID projectID) ∧
        after = shared.holding tid (.access userID projectID)
          { tx with writes := tx.writes ++ [.insertAccess ⟨userID, projectID, .viewer⟩] }) := by
  simp only [addViewerToProject] at executed
  split at executed
  · cases executed
  · next free =>
      split at executed
      · cases executed
        exact .inl rfl
      · next absent =>
          split at executed
          · cases executed
            exact .inl rfl
          · cases executed
            exact .inr ⟨absent, free, rfl⟩

theorem markInviteUsed_eq_some {id : Uuid} {result : Except DbError Unit}
    (present : ∃ row ∈ (tx.view shared.db).invites.rows, row.id = id)
    (executed : shared.markInviteUsed tid id tx = some (result, after)) :
    ¬ shared.HeldElsewhere tid (.invite id) ∧
      after = shared.holding tid (.invite id) { tx with writes := tx.writes ++ [.markUsed id] } := by
  unfold markInviteUsed at executed
  split at executed
  · next absent =>
      obtain ⟨row, member, sameId⟩ := present
      exact absurd (decide_eq_true sameId) (List.find?_eq_none.mp absent row member)
  · split at executed
    · cases executed
    · next free =>
        cases executed
        exact ⟨free, rfl⟩

end Statements

end TxShared

/-! ### Joins -/

/-- The transaction of a user has read one invite, of another user and not
expired when the transaction started. -/
structure Chosen (user : Bytes) (tx : OpenTx) (read : LockedRead) : Prop where
  only : tx.reads = [read]
  unexpired : tx.startedAt < read.invite.expiresAt
  foreign : read.invite.createdBy ≠ user

/-- The writes make the user at most a viewer of the project of the invite. -/
def MakesViewer (user : Bytes) (invite : ProjectInvite) (writes : List RowWrite) : Prop :=
  writes = [] ∨ writes = [.insertAccess ⟨user, invite.projectID, .viewer⟩]

/-- The transaction uses up the one invite that it has read, and makes the user
at most a viewer of the invite's project. -/
structure JoinedBy (user : Bytes) (tx : OpenTx) (read : LockedRead) : Prop where
  chosen : Chosen user tx read
  unused : read.invite.usedAt = none
  writes : ∃ early, MakesViewer user read.invite early ∧
    tx.writes = early ++ [.markUsed read.invite.id]

/-- How far a join has come: the rest of its program, and its transaction. -/
inductive Stage (shared : TxShared) (tid : Nat) (user : Bytes) : TxProgram (List Reply) → Prop where
  | starting (closed : shared.openTx tid = none) (code : String) :
      Stage shared tid user (Join.joinProjectByInvite tid user code)
  | reading {startedAt : Int} (opened : shared.openTx tid = some ⟨startedAt, [], []⟩)
      (code : String) : Stage shared tid user (Join.readInvite tid user code)
  | adding {tx : OpenTx} {read : LockedRead} (opened : shared.openTx tid = some tx)
      (sound : shared.Sound tid tx) (chosen : Chosen user tx read) (noWrites : tx.writes = []) :
      Stage shared tid user (Join.addViewer tid user read.invite)
  | marking {tx : OpenTx} {read : LockedRead} (opened : shared.openTx tid = some tx)
      (sound : shared.Sound tid tx) (chosen : Chosen user tx read)
      (makes : MakesViewer user read.invite tx.writes) :
      Stage shared tid user (Join.markUsed tid read.invite)
  | committing {tx : OpenTx} {read : LockedRead} (opened : shared.openTx tid = some tx)
      (sound : shared.Sound tid tx) (joined : JoinedBy user tx read) :
      Stage shared tid user (Join.commit tid read.invite)
  | failing {tx : OpenTx} (opened : shared.openTx tid = some tx) (sound : shared.Sound tid tx)
      (replies : List Reply) : Stage shared tid user (Join.fail tid replies)
  | finished (closed : shared.openTx tid = none) (replies : List Reply) :
      Stage shared tid user (.done replies)

/-- What a step of a join does to the committed rows. -/
inductive Progress (before : TxShared) (tid : Nat) (user : Bytes) (after : TxShared) : Prop where
  | keeps (db : after.db = before.db) (committed : after.committed = before.committed)
  | commits {tx : OpenTx} {read : LockedRead} (sound : before.Sound tid tx)
      (joined : JoinedBy user tx read) (db : after.db = tx.view before.db)
      (committed : after.committed = before.committed ++ [⟨tid, tx⟩])

/-- A step of the transaction `tid`. -/
structure Steps (before : TxShared) (tid : Nat) (user : Bytes) (after : TxShared)
    (rest : TxProgram (List Reply)) : Prop where
  stage : Stage after tid user rest
  leaves : ∀ other, other ≠ tid → before.Leaves other after
  progress : Progress before tid user after

section Steps

variable {shared after : TxShared} {tid : Nat} {user : Bytes} {tx : OpenTx} {read : LockedRead}
variable {fault : PortalCall.Fault}

theorem Stage.leaves {program : TxProgram (List Reply)} (stage : Stage shared tid user program)
    (leaves : shared.Leaves tid after) : Stage after tid user program := by
  have opens : ∀ {tx}, shared.openTx tid = tx → after.openTx tid = tx :=
    fun opened => leaves.openTx.trans opened
  cases stage with
  | starting closed code => exact .starting (opens closed) code
  | reading opened code => exact .reading (opens opened) code
  | adding opened sound chosen noWrites =>
      exact .adding (opens opened) (leaves.sound sound) chosen noWrites
  | marking opened sound chosen makes =>
      exact .marking (opens opened) (leaves.sound sound) chosen makes
  | committing opened sound joined =>
      exact .committing (opens opened) (leaves.sound sound) joined
  | failing opened sound replies => exact .failing (opens opened) (leaves.sound sound) replies
  | finished closed replies => exact .finished (opens closed) replies

/-- A step that changes nothing but the program. -/
theorem Steps.stay {rest : TxProgram (List Reply)} (stage : Stage shared tid user rest) :
    Steps shared tid user shared rest where
  stage := stage
  leaves _ _ := TxShared.leaves_refl
  progress := .keeps rfl rfl

theorem Steps.hold {rest : TxProgram (List Reply)} {lockable : Lockable}
    (free : ¬ shared.HeldElsewhere tid lockable)
    (stage : Stage (shared.holding tid lockable tx) tid user rest) :
    Steps shared tid user (shared.holding tid lockable tx) rest where
  stage := stage
  leaves _ different := TxShared.leaves_holding different free
  progress := .keeps rfl rfl

theorem Steps.close {rest : TxProgram (List Reply)}
    (stage : Stage (shared.close tid) tid user rest) :
    Steps shared tid user (shared.close tid) rest where
  stage := stage
  leaves _ different := TxShared.leaves_close different
  progress := .keeps rfl rfl

theorem steps_readInvite {startedAt : Int} {code : String}
    {response : Except DbError ProjectInvite}
    (opened : shared.openTx tid = some ⟨startedAt, [], []⟩)
    (executed : shared.statement tid fault (shared.getValidInviteByCode tid code) =
      some (response, after)) :
    Steps shared tid user after
      ((fun found : Except DbError ProjectInvite =>
        match found with
        | .error _ => Join.fail tid [.error 400 "invalid or expired invite"]
        | .ok invite =>
            if invite.createdBy = user then Join.fail tid [.error 400 "cannot use your own invite"]
            else Join.addViewer tid user invite) response) := by
  have empty : shared.Sound tid ⟨startedAt, [], []⟩ :=
    ⟨fun _ member => absurd member List.not_mem_nil, fun _ member => absurd member List.not_mem_nil,
      fun _ member => absurd member List.not_mem_nil⟩
  rcases TxShared.statement_eq_some opened executed with ⟨rfl, rfl⟩ | ⟨result, ran, answered⟩
  · exact .stay (.failing opened empty _)
  · rcases TxShared.getValidInviteByCode_eq_some ran with ⟨rfl, rfl⟩ |
      ⟨row, member, unused, unexpired, free, rfl, rfl⟩
    · rcases answered with rfl | rfl
      · exact .stay (.failing opened empty _)
      · exact .stay (.failing opened empty _)
    · have sound := empty.holding (.invite row.id) ⟨startedAt, [⟨row, shared.clock⟩], []⟩
        (fun read readMember => .inr (by
          rw [List.mem_singleton.mp readMember]
          exact ⟨rfl, member, unused⟩))
        (fun _ member => absurd member List.not_mem_nil)
        (fun _ member => absurd member List.not_mem_nil)
      refine .hold free ?_
      rcases answered with rfl | rfl
      · show Stage _ tid user (if row.createdBy = user then _ else _)
        split
        · exact .failing TxShared.openTx_holding sound _
        · next foreign =>
            exact .adding TxShared.openTx_holding sound ⟨rfl, unexpired, foreign⟩ rfl
      · exact .failing TxShared.openTx_holding sound _

theorem steps_addViewer {response : Except DbError Unit} (opened : shared.openTx tid = some tx)
    (sound : shared.Sound tid tx) (chosen : Chosen user tx read) (noWrites : tx.writes = [])
    (executed : shared.statement tid fault
      (shared.addViewerToProject tid user read.invite.projectID) = some (response, after)) :
    Steps shared tid user after
      ((fun added : Except DbError Unit =>
        match added with
        | .error _ => Join.fail tid [.error 500 "failed to add user to project"]
        | .ok _ => Join.markUsed tid read.invite) response) := by
  have either : ∀ {shared : TxShared} {tx : OpenTx}, shared.openTx tid = some tx →
      shared.Sound tid tx → Chosen user tx read → MakesViewer user read.invite tx.writes →
      Stage shared tid user
        ((fun added : Except DbError Unit =>
          match added with
          | .error _ => Join.fail tid [.error 500 "failed to add user to project"]
          | .ok _ => Join.markUsed tid read.invite) response) := by
    intro shared tx opened sound chosen makes
    cases response with
    | error err => exact .failing opened sound _
    | ok _ => exact .marking opened sound chosen makes
  rcases TxShared.statement_eq_some opened executed with ⟨rfl, rfl⟩ | ⟨result, ran, -⟩
  · exact .stay (either opened sound chosen (.inl noWrites))
  · rcases TxShared.addViewerToProject_eq_some ran with rfl | ⟨absent, free, rfl⟩
    · exact .stay (either opened sound chosen (.inl noWrites))
    · refine .hold free (either TxShared.openTx_holding (sound.holding _ _ ?_ ?_ ?_)
        ⟨chosen.only, chosen.unexpired, chosen.foreign⟩ (.inr (by simp [noWrites])))
      · exact fun read member => .inl member
      · intro row member
        have view : tx.view shared.db = shared.db := by
          rw [OpenTx.view, noWrites, List.foldl_nil]
        rw [noWrites, List.nil_append, List.mem_singleton] at member
        cases member
        exact .inr ⟨rfl, view ▸ absent⟩
      · intro id consumes
        simp [OpenTx.Consumes, noWrites] at consumes

theorem steps_markUsed {response : Except DbError Unit} (opened : shared.openTx tid = some tx)
    (sound : shared.Sound tid tx) (chosen : Chosen user tx read)
    (makes : MakesViewer user read.invite tx.writes)
    (executed : shared.statement tid fault (shared.markInviteUsed tid read.invite.id) =
      some (response, after)) :
    Steps shared tid user after
      ((fun marked : Except DbError Unit =>
        match marked with
        | .error _ => Join.fail tid [.error 500 "failed to consume invite"]
        | .ok _ => Join.commit tid read.invite) response) := by
  have readMember : read ∈ tx.reads := by simp [chosen.only]
  have unmarked : ∀ id, ¬ tx.Consumes id := by
    intro id consumes
    rcases makes with noWrites | oneWrite
    · simp [OpenTx.Consumes, noWrites] at consumes
    · simp [OpenTx.Consumes, oneWrite] at consumes
  have ⟨held, rowMember, unused⟩ := sound.reads read readMember
  rcases TxShared.statement_eq_some opened executed with ⟨rfl, rfl⟩ | ⟨result, ran, answered⟩
  · exact .stay (.failing opened sound _)
  · have present : ∃ row ∈ (tx.view shared.db).invites.rows, row.id = read.invite.id :=
      ⟨read.invite, by rwa [OpenTx.invites_view unmarked], rfl⟩
    obtain ⟨free, rfl⟩ := TxShared.markInviteUsed_eq_some present ran
    have marked : (shared.holding tid (.invite read.invite.id)
        { tx with writes := tx.writes ++ [.markUsed read.invite.id] }).Sound tid
          { tx with writes := tx.writes ++ [.markUsed read.invite.id] } := by
      refine sound.holding _ _ (fun read member => .inl member) ?_ ?_
      · intro row member
        rcases List.mem_append.mp member with old | isMark
        · exact .inl old
        · rw [List.mem_singleton] at isMark
          cases isMark
      · intro id consumes
        rcases List.mem_append.mp consumes with old | isMark
        · exact absurd old (unmarked id)
        · rw [List.mem_singleton] at isMark
          cases isMark
          exact ⟨read, readMember, rfl⟩
    refine .hold free ?_
    cases response with
    | error err => exact .failing TxShared.openTx_holding marked _
    | ok _ =>
        exact .committing TxShared.openTx_holding marked
          ⟨⟨chosen.only, chosen.unexpired, chosen.foreign⟩, unused, tx.writes, makes, rfl⟩

/-- A commit, whether or not its answer arrives. -/
theorem Steps.commit {rest : TxProgram (List Reply)} (sound : shared.Sound tid tx)
    (joined : JoinedBy user tx read) (stage : Stage (shared.commit tid tx) tid user rest) :
    Steps shared tid user (shared.commit tid tx) rest where
  stage := stage
  leaves _ different := TxShared.leaves_commit different sound
  progress := .commits sound joined rfl rfl

/-- The time that passes is no part of what a step does. -/
theorem Steps.of_tick (clock : Int) {rest : TxProgram (List Reply)}
    (steps : Steps { shared with clock } tid user after rest) : Steps shared tid user after rest where
  stage := steps.stage
  leaves other different :=
    have leaves := steps.leaves other different
    ⟨leaves.openTx, leaves.held, leaves.invites, leaves.access⟩
  progress := by
    cases steps.progress with
    | keeps db committed => exact .keeps db committed
    | commits sound joined db committed =>
        exact .commits ⟨sound.reads, sound.inserts, sound.marks⟩ joined db committed

/-- What one call of a join does. -/
theorem Stage.step {program : TxProgram (List Reply)} (stage : Stage shared tid user program)
    {request : TxCall} {next : request.Response → TxProgram (List Reply)}
    (calls : program = .call request next) {choice : TxChoice} {response : request.Response}
    (executed : TxShared.execute request choice shared = some (response, after)) :
    Steps shared tid user after (next response) := by
  have ticked := stage.leaves (TxShared.leaves_tick (shared.clock + choice.elapsed))
  refine .of_tick (shared.clock + choice.elapsed) ?_
  cases ticked with
  | starting closed code =>
      unfold Join.joinProjectByInvite at calls
      split at calls
      · cases calls
      · cases calls
        simp only [TxShared.execute] at executed
        split at executed
        · cases executed
          exact ⟨.reading (Function.update_self _ _ _) code,
            fun _ different => TxShared.leaves_setTx different, .keeps rfl rfl⟩
        · cases executed
          exact .stay (.finished closed _)
  | reading opened code =>
      cases calls
      exact steps_readInvite opened executed
  | adding opened sound chosen noWrites =>
      cases calls
      exact steps_addViewer opened sound chosen noWrites executed
  | marking opened sound chosen makes =>
      cases calls
      exact steps_markUsed opened sound chosen makes executed
  | committing opened sound joined =>
      cases calls
      have opened' : shared.openTx tid = _ := opened
      simp only [TxShared.execute, opened'] at executed
      cases fault : choice.fault with
      | none =>
          rw [fault] at executed
          cases executed
          exact .commit sound joined (.finished TxShared.openTx_commit _)
      | refused =>
          rw [fault] at executed
          cases executed
          exact .close (.finished TxShared.openTx_close _)
      | lost =>
          rw [fault] at executed
          cases executed
          exact .commit sound joined (.finished TxShared.openTx_commit _)
  | failing opened sound replies =>
      cases calls
      cases executed
      exact .close (.finished TxShared.openTx_close _)
  | finished closed replies => cases calls

end Steps

/-! ### Runs -/

/-- No two of the transactions use up the same invite. -/
def SingleUse (committed : List CommittedTx) : Prop :=
  committed.Pairwise fun first second => ∀ id, first.tx.Consumes id → ¬ second.tx.Consumes id

/-- Every committed transaction is a join by its user. -/
def AllJoined (user : Nat → Bytes) (committed : List CommittedTx) : Prop :=
  ∀ done ∈ committed, ∃ read, JoinedBy (user done.tid) done.tx read

abbrev Joins := Processes Nat TxCall TxCall.Response (List Reply) TxShared

/-- Each number stands for a request of a user with the code of an invite; no
transaction is open. -/
def Joins.start (user : Nat → Bytes) (code : Nat → String) (db : Database) (clock : Int) : Joins where
  shared := ⟨db, clock, fun _ => none, fun _ => none, []⟩
  program tid := Join.joinProjectByInvite tid (user tid) (code tid)

/-- What holds between the steps of joins. -/
structure JoinInvariant (user : Nat → Bytes) (joins : Joins) : Prop where
  stage : ∀ tid, Stage joins.shared tid (user tid) (joins.program tid)
  joined : AllJoined user joins.shared.committed
  usedUp : ∀ done ∈ joins.shared.committed, ∀ id, done.tx.Consumes id → UsedUp joins.shared.db id
  singleUse : SingleUse joins.shared.committed

section Runs

variable {user : Nat → Bytes} {code : Nat → String} {db : Database} {clock : Int}

theorem joinInvariant_start : JoinInvariant user (Joins.start user code db clock) where
  stage tid := .starting rfl (code tid)
  joined _ member := absurd member List.not_mem_nil
  usedUp _ member := absurd member List.not_mem_nil
  singleUse := List.Pairwise.nil

/-- A transaction that has read an invite finds it unused, so no committed one
has used it up. -/
theorem not_consumes_of_sound {shared : TxShared} {tid : Nat} {tx : OpenTx} {id : Uuid}
    (sound : shared.Sound tid tx) (used : UsedUp shared.db id) : ¬ tx.Consumes id := by
  intro consumes
  obtain ⟨read, member, rfl⟩ := sound.marks id consumes
  obtain ⟨-, rowMember, unused⟩ := sound.reads read member
  have isUsed := used _ rowMember rfl
  rw [unused] at isUsed
  cases isUsed

theorem JoinInvariant.step {joins : Joins} (invariant : JoinInvariant user joins) {tid : Nat}
    {after : TxShared} {rest : TxProgram (List Reply)}
    (steps : Steps joins.shared tid (user tid) after rest) :
    JoinInvariant user ⟨after, Function.update joins.program tid rest⟩ := by
  have stage : ∀ other, Stage after other (user other)
      (Function.update joins.program tid rest other) := by
    intro other
    by_cases same : other = tid
    · subst same
      rw [Function.update_self]
      exact steps.stage
    · rw [Function.update_of_ne same]
      exact (invariant.stage other).leaves (steps.leaves other same)
  cases steps.progress with
  | keeps db committed =>
      refine ⟨stage, ?_, ?_, ?_⟩
      · exact committed ▸ invariant.joined
      · exact committed ▸ db ▸ invariant.usedUp
      · exact committed ▸ invariant.singleUse
  | @commits tx read sound joined db committed =>
      refine ⟨stage, ?_, ?_, ?_⟩
      · intro done member
        replace member : done ∈ after.committed := member
        rw [committed] at member
        rcases List.mem_append.mp member with old | new
        · exact invariant.joined done old
        · rw [List.mem_singleton.mp new]
          exact ⟨read, joined⟩
      · intro done member id consumes
        replace member : done ∈ after.committed := member
        rw [committed] at member
        show UsedUp after.db id
        rw [db]
        rcases List.mem_append.mp member with old | new
        · exact OpenTx.usedUp_view_of_usedUp (invariant.usedUp done old id consumes)
        · rw [List.mem_singleton.mp new] at consumes
          exact OpenTx.usedUp_view consumes
      · show SingleUse after.committed
        rw [committed, SingleUse, List.pairwise_append]
        refine ⟨invariant.singleUse, List.pairwise_singleton _ _, ?_⟩
        intro first firstMember second secondMember id consumes
        rw [List.mem_singleton.mp secondMember]
        exact not_consumes_of_sound sound (invariant.usedUp first firstMember id consumes)

/-- No step changes the role of a member. -/
theorem Steps.role? {shared after : TxShared} {tid : Nat} {user userID : Bytes}
    {rest : TxProgram (List Reply)} {projectID : Uuid} {role : Role}
    (steps : Steps shared tid user after rest) (isRole : shared.db.role? userID projectID = some role) :
    after.db.role? userID projectID = some role := by
  cases steps.progress with
  | keeps db committed => rw [db, isRole]
  | commits sound joined db committed =>
      obtain ⟨row, found, rfl⟩ := Option.map_eq_some_iff.mp isRole
      rw [db, Database.role?, OpenTx.access?_view_of_eq_some found]
      rfl

theorem joinInvariant_of_ran {first last : Joins}
    {events : List (Event Nat TxCall TxCall.Response TxShared)}
    (invariant : JoinInvariant user first)
    (ran : Processes.Ran TxShared.execute first events last) :
    JoinInvariant user last ∧ ∀ event ∈ events, ∀ userID projectID role,
      event.before.db.role? userID projectID = some role →
        event.after.db.role? userID projectID = some role := by
  induction events generalizing first with
  | nil =>
      rw [← show first = last from ran]
      exact ⟨invariant, fun event member => absurd member List.not_mem_nil⟩
  | cons event events ih =>
      obtain ⟨next, calls, before, ⟨choice, executed⟩, rest⟩ := ran
      rw [before] at executed
      have steps := (invariant.stage event.pid).step calls executed
      have ⟨holds, roles⟩ := ih (invariant.step steps) rest
      apply And.intro holds
      intro other member
      rcases List.mem_cons.mp member with rfl | later
      · intro userID projectID role isRole
        rw [before] at isRole
        exact steps.role? isRole
      · exact roles other later

/-- Joins use up each invite once, use no invite of their own or one that was
expired when their transaction started, and leave the members their roles. -/
theorem joins_singleUse {last : Joins} {events : List (Event Nat TxCall TxCall.Response TxShared)}
    (ran : Processes.Ran TxShared.execute (Joins.start user code db clock) events last) :
    SingleUse last.shared.committed ∧ AllJoined user last.shared.committed ∧
      ∀ event ∈ events, ∀ userID projectID role,
        event.before.db.role? userID projectID = some role →
          event.after.db.role? userID projectID = some role :=
  have ⟨invariant, roles⟩ := joinInvariant_of_ran joinInvariant_start ran
  ⟨invariant.singleUse, invariant.joined, roles⟩

end Runs

/-! ### An invite that expires during a join -/

/-- A project with an owner, who has invited someone until the time 100. -/
def invitedDatabase : Database :=
  { Database.empty with
    users := ⟨[⟨[97], "a", "a"⟩, ⟨[98], "b", "b"⟩], by simp [User.conflicts]⟩
    projects := .single ⟨.copy [1], "shop", [97], 0⟩
    access := .single ⟨[97], .copy [1], .owner⟩
    invites := .single ⟨.copy [2], .copy [1], "i", [97], 100, none⟩ }

/-- The second user joins with the code of the invite. -/
def guests : Joins :=
  .start (fun _ => [98]) (fun _ => "i") invitedDatabase 90

/-- The transaction starts before the invite expires, and reads it afterwards. -/
def lateRead : List (Nat × TxChoice) :=
  [(0, {}), (0, { elapsed := 20 }), (0, {}), (0, {}), (0, {})]

theorem lateRead_expired :
    ¬ ∀ (user : Nat → Bytes) (code : Nat → String) (db : Database) (clock : Int) (last : Joins)
        (events : List (Event Nat TxCall TxCall.Response TxShared)),
      Processes.Ran TxShared.execute (Joins.start user code db clock) events last →
        ∀ done ∈ last.shared.committed, ∀ read ∈ done.tx.reads,
          read.readAt < read.invite.expiresAt := by
  intro unexpired
  have always := unexpired _ _ _ _ _ _ (Processes.ran_run guests lateRead)
  have isLate : ¬ ∀ done ∈ (guests.run TxShared.execute lateRead).2.shared.committed,
      ∀ read ∈ done.tx.reads, read.readAt < read.invite.expiresAt := by
    decide +kernel
  exact isLate always

/-- Two joins with one invite: the second waits for the first and finds nothing. -/
def racingJoins : List (Nat × TxChoice) :=
  [(0, {}), (1, {}), (0, {}), (1, {}), (0, {}), (0, {}), (0, {}), (1, {}), (1, {})]

theorem joins_singleUse_guests :
    (guests.run TxShared.execute racingJoins).2.shared.committed.length = 1 ∧
      SingleUse (guests.run TxShared.execute racingJoins).2.shared.committed := by
  apply And.intro (by decide +kernel)
  exact (joins_singleUse (Processes.ran_run guests racingJoins)).1

end Portal

end Litefunctions
