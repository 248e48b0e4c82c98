import FastApiAuth.Library.Ladders
import FastApiAuth.Migrations
import FastApiAuth.Privileges
import FastApiAuth.SignInMethods

/-!
# Upgrades and downgrades

Each revision has the tables it creates and the constraints it puts on them, and the two
functions of its module lead to it and back. `alembic` moves one revision at a time; a
command that fails is rolled back as a whole.
-/

namespace FastApiAuth.AlembicWalks

set_option autoImplicit false

open Database Ladders Migrations Runs SignInMethods
open Privileges (seeded)

section Revisions

/-- 4a15f12ac674 -/
structure VerifiableTable where
  rows : List VerifiableRow
  nextUserId : Nat
  userIds : (rows.map fun u => u.id).Nodup
  emails : (rows.map fun u => u.email).Nodup
  userIds_lt : ∀ u ∈ rows, u.id < nextUserId

/-- Only users and oauth_accounts are there. -/
def WithoutRoles (db : Database) : Prop :=
  db = { Database.empty with
    users := db.users
    oauthAccounts := db.oauthAccounts
    nextUserId := db.nextUserId
    nextAccountId := db.nextAccountId }

/-- 6fe368ffba4d -/
structure OAuthTables where
  db : Database
  consistent : db.Consistent
  withoutRoles : WithoutRoles db

/-- 49f933ee3842 -/
structure RbacTables where
  db : Database
  consistent : db.Consistent
  withoutFiles : db.fileUploads = []

/-- 5d1b816d2fa2, the head -/
structure HeadTables where
  db : Database
  consistent : db.Consistent

inductive Tables where
  | base
  | at12e5e041ba67 (t : UsersTable)
  | at4a15f12ac674 (t : VerifiableTable)
  | at6fe368ffba4d (t : OAuthTables)
  | at49f933ee3842 (t : RbacTables)
  | at5d1b816d2fa2 (t : HeadTables)

inductive Revision where
  | base
  | r12e5e041ba67
  | r4a15f12ac674
  | r6fe368ffba4d
  | r49f933ee3842
  | r5d1b816d2fa2

/-- How many `down_revision`s lie below. -/
def Revision.place : Revision → Nat
  | .base => 0
  | .r12e5e041ba67 => 1
  | .r4a15f12ac674 => 2
  | .r6fe368ffba4d => 3
  | .r49f933ee3842 => 4
  | .r5d1b816d2fa2 => 5

def Tables.revision : Tables → Revision
  | .base => .base
  | .at12e5e041ba67 _ => .r12e5e041ba67
  | .at4a15f12ac674 _ => .r4a15f12ac674
  | .at6fe368ffba4d _ => .r6fe368ffba4d
  | .at49f933ee3842 _ => .r49f933ee3842
  | .at5d1b816d2fa2 _ => .r5d1b816d2fa2

end Revisions

section Up

/-- create_table on users -/
def upgrade12e5e041ba67 : UsersTable :=
  { rows := [], nextUserId := 1, userIds := .nil, emails := .nil, userIds_lt := by simp }

def addIsVerified (t : UsersTable) : VerifiableTable where
  rows := upgrade4a15f12ac674 t
  nextUserId := t.nextUserId
  userIds := by simpa [upgrade4a15f12ac674, Function.comp_def] using t.userIds
  emails := by simpa [upgrade4a15f12ac674, Function.comp_def] using t.emails
  userIds_lt := by simpa [upgrade4a15f12ac674] using t.userIds_lt

theorem upgrade6fe368ffba4d_consistent (t : VerifiableTable) :
    (upgrade6fe368ffba4d t.nextUserId t.rows).Consistent where
  userIds := by simpa [upgrade6fe368ffba4d, Function.comp_def] using t.userIds
  emails := by simpa [upgrade6fe368ffba4d, Function.comp_def] using t.emails
  userIds_lt := by simpa [upgrade6fe368ffba4d] using t.userIds_lt
  accountIds := .nil
  identities := .nil
  accountIds_lt := by simp [upgrade6fe368ffba4d, Database.empty]
  account_user := by simp [upgrade6fe368ffba4d, Database.empty]
  role_user := by simp [upgrade6fe368ffba4d, Database.empty]

def addOAuthAccounts (t : VerifiableTable) : OAuthTables where
  db := upgrade6fe368ffba4d t.nextUserId t.rows
  consistent := upgrade6fe368ffba4d_consistent t
  withoutRoles := rfl

/-- The tables after 49f933ee3842 has found these users and accounts. -/
def reseeded (db : Database) : Database :=
  { Database.empty.seedRbacDefaults with
    users := db.users
    oauthAccounts := db.oauthAccounts
    nextUserId := db.nextUserId
    nextAccountId := db.nextAccountId
    userRoles := db.users.map fun u => (u.id, 3) }

theorem upgrade49f933ee3842_some {db : Database} (h : WithoutRoles db) :
    upgrade49f933ee3842 db = some (reseeded db) := by
  rw [h]
  rfl

theorem reseeded_consistent {db : Database} (hc : db.Consistent) : (reseeded db).Consistent where
  userIds := hc.userIds
  emails := hc.emails
  userIds_lt := hc.userIds_lt
  accountIds := hc.accountIds
  identities := hc.identities
  accountIds_lt := hc.accountIds_lt
  account_user := hc.account_user
  role_user := by
    intro p hp
    obtain ⟨u, hu, rfl⟩ := List.mem_map.mp hp
    exact ⟨u, hu, rfl⟩

def addRbac (t : OAuthTables) : Option RbacTables :=
  match h : upgrade49f933ee3842 t.db with
  | none => none
  | some db => some
    { db
      consistent := by
        rw [upgrade49f933ee3842_some t.withoutRoles] at h
        exact Option.some.inj h ▸ reseeded_consistent t.consistent
      withoutFiles := by
        rw [upgrade49f933ee3842_some t.withoutRoles] at h
        exact Option.some.inj h ▸ rfl }

def addFileUploads (t : RbacTables) : HeadTables where
  db := upgrade5d1b816d2fa2 t.db
  consistent := { t.consistent with }

/-- `alembic upgrade +1` -/
def upgradeOne : Tables → Option Tables
  | .base => some (.at12e5e041ba67 upgrade12e5e041ba67)
  | .at12e5e041ba67 t => some (.at4a15f12ac674 (addIsVerified t))
  | .at4a15f12ac674 t => some (.at6fe368ffba4d (addOAuthAccounts t))
  | .at6fe368ffba4d t => (addRbac t).map .at49f933ee3842
  | .at49f933ee3842 t => some (.at5d1b816d2fa2 (addFileUploads t))
  | .at5d1b816d2fa2 _ => none

end Up

section Down

/-- drop_table on file_uploads -/
def downgrade5d1b816d2fa2 (t : HeadTables) : RbacTables where
  db := { t.db with fileUploads := [] }
  consistent := { t.consistent with }
  withoutFiles := rfl

/-- The four tables go, and with them the sequences of their keys. -/
def downgrade49f933ee3842 (t : RbacTables) : OAuthTables where
  db := { t.db with
    userRoles := []
    rolePermissions := []
    roles := []
    permissions := []
    nextRoleId := 1
    nextPermissionId := 1 }
  consistent := { t.consistent with role_user := by simp }
  withoutRoles := by
    simp only [WithoutRoles, Database.empty, t.withoutFiles]

/-- A row under the NOT NULL that alter_column restores. -/
def withPassword (u : User) : Option VerifiableRow :=
  u.hashedPassword.map fun hashedPassword =>
    { id := u.id, email := u.email, hashedPassword, isActive := u.isActive,
      createdAt := u.createdAt, isVerified := u.isVerified }

/-- What `upgrade6fe368ffba4d` makes of a row. -/
def nullable (u : VerifiableRow) : User :=
  { id := u.id, email := u.email, hashedPassword := some u.hashedPassword,
    isActive := u.isActive, isVerified := u.isVerified, createdAt := u.createdAt }

theorem nullable_of_withPassword {u : User} {row : VerifiableRow}
    (h : withPassword u = some row) : nullable row = u := by
  obtain ⟨hashedPassword, hpassword, rfl⟩ := Option.map_eq_some_iff.mp h
  simp [nullable, ← hpassword]

theorem map_nullable {users : List User} {rows : List VerifiableRow}
    (h : users.mapM withPassword = some rows) : rows.map nullable = users := by
  induction users generalizing rows with
  | nil =>
    cases h
    rfl
  | cons u users ih =>
    rw [List.mapM_cons] at h
    obtain ⟨row, hrow, h⟩ := Option.bind_eq_some_iff.mp h
    obtain ⟨rest, hrest, h⟩ := Option.bind_eq_some_iff.mp h
    cases h
    rw [List.map_cons, nullable_of_withPassword hrow, ih hrest]

/-- drop_table on oauth_accounts, then the NOT NULL, which a row without a password
refuses. -/
def downgrade6fe368ffba4d (t : OAuthTables) : Option VerifiableTable :=
  match h : t.db.users.mapM withPassword with
  | none => none
  | some rows => some
    { rows
      nextUserId := t.db.nextUserId
      userIds := by
        have hids := t.consistent.userIds
        rw [← map_nullable h, List.map_map] at hids
        exact hids
      emails := by
        have hemails := t.consistent.emails
        rw [← map_nullable h, List.map_map] at hemails
        exact hemails
      userIds_lt := by
        intro row hrow
        have hlt := t.consistent.userIds_lt
        rw [← map_nullable h] at hlt
        exact hlt _ (List.mem_map_of_mem hrow) }

/-- drop_column on is_verified -/
def downgrade4a15f12ac674 (t : VerifiableTable) : UsersTable where
  rows := t.rows.map VerifiableRow.toUserRow
  nextUserId := t.nextUserId
  userIds := by simpa [Function.comp_def] using t.userIds
  emails := by simpa [Function.comp_def] using t.emails
  userIds_lt := by simpa using t.userIds_lt

/-- `alembic downgrade -1` -/
def downgradeOne : Tables → Option Tables
  | .base => none
  | .at12e5e041ba67 _ => some .base
  | .at4a15f12ac674 t => some (.at12e5e041ba67 (downgrade4a15f12ac674 t))
  | .at6fe368ffba4d t => (downgrade6fe368ffba4d t).map .at4a15f12ac674
  | .at49f933ee3842 t => some (.at6fe368ffba4d (downgrade49f933ee3842 t))
  | .at5d1b816d2fa2 t => some (.at49f933ee3842 (downgrade5d1b816d2fa2 t))

end Down

section Undone

theorem addRbac_db {t : OAuthTables} {t' : RbacTables} (h : addRbac t = some t') :
    t'.db = reseeded t.db := by
  unfold addRbac at h
  split at h
  · cases h
  · rename_i db hdb
    cases h
    rw [upgrade49f933ee3842_some t.withoutRoles] at hdb
    exact (Option.some.inj hdb).symm

theorem addRbac_ne_none (t : OAuthTables) : addRbac t ≠ none := by
  intro h
  unfold addRbac at h
  split at h
  · rename_i hnone
    rw [upgrade49f933ee3842_some t.withoutRoles] at hnone
    cases hnone
  · cases h

theorem downgrade_addIsVerified (t : UsersTable) :
    downgrade4a15f12ac674 (addIsVerified t) = t := by
  obtain ⟨rows, nextUserId, _, _, _⟩ := t
  simp [downgrade4a15f12ac674, addIsVerified, upgrade4a15f12ac674, Function.comp_def]

theorem mapM_withPassword (rows : List VerifiableRow) :
    (rows.map nullable).mapM withPassword = some rows := by
  induction rows with
  | nil => rfl
  | cons row rows ih =>
    rw [List.map_cons, List.mapM_cons, ih]
    rfl

theorem downgrade_addOAuthAccounts (t : VerifiableTable) :
    downgrade6fe368ffba4d (addOAuthAccounts t) = some t := by
  have hrows : (addOAuthAccounts t).db.users.mapM withPassword = some t.rows :=
    mapM_withPassword t.rows
  unfold downgrade6fe368ffba4d
  split
  · rename_i hnone
    rw [hrows] at hnone
    cases hnone
  · rename_i rows h
    rw [hrows] at h
    cases h
    rfl

theorem OAuthTables.ext {t t' : OAuthTables} (h : t.db = t'.db) : t = t' := by
  cases t
  cases t'
  cases h
  rfl

theorem RbacTables.ext {t t' : RbacTables} (h : t.db = t'.db) : t = t' := by
  cases t
  cases t'
  cases h
  rfl

theorem downgrade_addRbac {t : OAuthTables} {t' : RbacTables} (h : addRbac t = some t') :
    downgrade49f933ee3842 t' = t := by
  apply OAuthTables.ext
  rw [t.withoutRoles]
  simp only [downgrade49f933ee3842, addRbac_db h]
  rfl

theorem downgrade_addFileUploads (t : RbacTables) :
    downgrade5d1b816d2fa2 (addFileUploads t) = t := by
  apply RbacTables.ext
  obtain ⟨db, _, hfiles⟩ := t
  cases db
  cases hfiles
  rfl

theorem upgradeOne_rbac {t : OAuthTables} {t' : Tables}
    (h : upgradeOne (.at6fe368ffba4d t) = some t') :
    ∃ rbac, addRbac t = some rbac ∧ t' = .at49f933ee3842 rbac := by
  unfold upgradeOne at h
  obtain ⟨rbac, hrbac, rfl⟩ := Option.map_eq_some_iff.mp h
  exact ⟨rbac, hrbac, rfl⟩

theorem downgradeOne_oauth {t : OAuthTables} {t' : Tables}
    (h : downgradeOne (.at6fe368ffba4d t) = some t') :
    ∃ verifiable, downgrade6fe368ffba4d t = some verifiable ∧ t' = .at4a15f12ac674 verifiable := by
  unfold downgradeOne at h
  obtain ⟨verifiable, hverifiable, rfl⟩ := Option.map_eq_some_iff.mp h
  exact ⟨verifiable, hverifiable, rfl⟩

/-- The chain of the revisions. -/
def chain : Ladder Tables where
  rung t := t.revision.place
  up := upgradeOne
  down := downgradeOne
  rung_up := by
    intro t t' h
    cases t with
    | base | at12e5e041ba67 _ | at4a15f12ac674 _ | at49f933ee3842 _ =>
      cases h
      rfl
    | at6fe368ffba4d t =>
      obtain ⟨_, _, rfl⟩ := upgradeOne_rbac h
      rfl
    | at5d1b816d2fa2 _ => cases h
  rung_down := by
    intro t t' h
    cases t with
    | base => cases h
    | at12e5e041ba67 _ | at4a15f12ac674 _ | at49f933ee3842 _ | at5d1b816d2fa2 _ =>
      cases h
      rfl
    | at6fe368ffba4d t =>
      obtain ⟨_, _, rfl⟩ := downgradeOne_oauth h
      rfl
  down_up := by
    intro t t' h
    cases t with
    | base =>
      cases h
      rfl
    | at12e5e041ba67 t =>
      cases h
      exact congrArg (some ∘ Tables.at12e5e041ba67) (downgrade_addIsVerified t)
    | at4a15f12ac674 t =>
      cases h
      exact congrArg (Option.map Tables.at4a15f12ac674) (downgrade_addOAuthAccounts t)
    | at6fe368ffba4d t =>
      obtain ⟨t', ht', rfl⟩ := upgradeOne_rbac h
      exact congrArg (some ∘ Tables.at6fe368ffba4d) (downgrade_addRbac ht')
    | at49f933ee3842 t =>
      cases h
      exact congrArg (some ∘ Tables.at49f933ee3842) (downgrade_addFileUploads t)
    | at5d1b816d2fa2 _ => cases h

end Undone

section RoundTrips

def everyoneHasPassword (db : Database) : Bool := db.users.all fun u => u.hashedPassword.isSome

/-- What is left of the tables of the head after a visit to the revision, and `none` where
the way down is barred. -/
def remains (db : Database) : Revision → Option Database
  | .r5d1b816d2fa2 => some db
  | .r49f933ee3842 => some { db with fileUploads := [] }
  | .r6fe368ffba4d => some (reseeded db)
  | .r4a15f12ac674 =>
    if everyoneHasPassword db then
      some (reseeded { db with oauthAccounts := [], nextAccountId := 1 })
    else none
  | .r12e5e041ba67 =>
    if everyoneHasPassword db then
      some (reseeded { db with
        users := db.users.map (setVerified false), oauthAccounts := [], nextAccountId := 1 })
    else none
  | .base => if everyoneHasPassword db then some Database.empty.seedRbacDefaults else none

/-- The tables that `alembic upgrade head` makes. -/
def headOf : Tables → Database
  | .base => Database.empty.seedRbacDefaults
  | .at12e5e041ba67 t => reseeded (upgrade6fe368ffba4d t.nextUserId (upgrade4a15f12ac674 t))
  | .at4a15f12ac674 t => reseeded (upgrade6fe368ffba4d t.nextUserId t.rows)
  | .at6fe368ffba4d t => reseeded t.db
  | .at49f933ee3842 t => upgrade5d1b816d2fa2 t.db
  | .at5d1b816d2fa2 t => t.db

theorem climb_rbac (t : RbacTables) :
    ∃ head, chain.climb 1 (.at49f933ee3842 t) = some (.at5d1b816d2fa2 head) ∧
      head.db = upgrade5d1b816d2fa2 t.db :=
  ⟨_, rfl, rfl⟩

theorem climb_oauth (t : OAuthTables) :
    ∃ head, chain.climb 2 (.at6fe368ffba4d t) = some (.at5d1b816d2fa2 head) ∧
      head.db = reseeded t.db := by
  cases h : addRbac t with
  | none => exact absurd h (addRbac_ne_none t)
  | some rbac =>
    obtain ⟨head, hclimb, hdb⟩ := climb_rbac rbac
    have hup : chain.up (.at6fe368ffba4d t) = some (.at49f933ee3842 rbac) := by
      change (addRbac t).map Tables.at49f933ee3842 = _
      rw [h]
      rfl
    refine ⟨head, ?_, ?_⟩
    · rw [Ladder.climb_succ_left, hup]
      exact hclimb
    · rw [hdb, addRbac_db h]
      rfl

theorem climb_verifiable (t : VerifiableTable) :
    ∃ head, chain.climb 3 (.at4a15f12ac674 t) = some (.at5d1b816d2fa2 head) ∧
      head.db = reseeded (upgrade6fe368ffba4d t.nextUserId t.rows) := by
  obtain ⟨head, hclimb, hdb⟩ := climb_oauth (addOAuthAccounts t)
  refine ⟨head, ?_, hdb⟩
  rw [Ladder.climb_succ_left]
  exact hclimb

theorem climb_users (t : UsersTable) :
    ∃ head, chain.climb 4 (.at12e5e041ba67 t) = some (.at5d1b816d2fa2 head) ∧
      head.db = reseeded (upgrade6fe368ffba4d t.nextUserId (upgrade4a15f12ac674 t)) := by
  obtain ⟨head, hclimb, hdb⟩ := climb_verifiable (addIsVerified t)
  refine ⟨head, ?_, hdb⟩
  rw [Ladder.climb_succ_left]
  exact hclimb

/-- From every revision the way up is open. -/
theorem climb_to_head (t : Tables) :
    ∃ n head, t.revision.place + n = 5 ∧ chain.climb n t = some (.at5d1b816d2fa2 head) ∧
      head.db = headOf t := by
  cases t with
  | base =>
    obtain ⟨head, hclimb, hdb⟩ := climb_users upgrade12e5e041ba67
    refine ⟨5, head, rfl, ?_, hdb⟩
    rw [Ladder.climb_succ_left]
    exact hclimb
  | at12e5e041ba67 t =>
    obtain ⟨head, hclimb, hdb⟩ := climb_users t
    exact ⟨4, head, rfl, hclimb, hdb⟩
  | at4a15f12ac674 t =>
    obtain ⟨head, hclimb, hdb⟩ := climb_verifiable t
    exact ⟨3, head, rfl, hclimb, hdb⟩
  | at6fe368ffba4d t =>
    obtain ⟨head, hclimb, hdb⟩ := climb_oauth t
    exact ⟨2, head, rfl, hclimb, hdb⟩
  | at49f933ee3842 t =>
    obtain ⟨head, hclimb, hdb⟩ := climb_rbac t
    exact ⟨1, head, rfl, hclimb, hdb⟩
  | at5d1b816d2fa2 t => exact ⟨0, t, rfl, rfl, rfl⟩

/-- The way down to 6fe368ffba4d is open to all tables. -/
def withoutRbac (t : HeadTables) : OAuthTables :=
  downgrade49f933ee3842 (downgrade5d1b816d2fa2 t)

theorem mapM_none {users : List User} (h : users.mapM withPassword = none) :
    (users.all fun u => u.hashedPassword.isSome) = false := by
  induction users with
  | nil => cases h
  | cons u users ih =>
    cases hpassword : u.hashedPassword with
    | none => simp [hpassword]
    | some hashedPassword =>
      rw [List.mapM_cons, withPassword, hpassword] at h
      cases hrest : users.mapM withPassword with
      | none => simpa [hpassword] using ih hrest
      | some rows => simp [hrest] at h

theorem all_of_mapM {users : List User} {rows : List VerifiableRow}
    (h : users.mapM withPassword = some rows) :
    (users.all fun u => u.hashedPassword.isSome) = true := by
  rw [← map_nullable h, List.all_map, List.all_eq_true]
  intro row _
  rfl

/-- Below it the way is open to tables in which everybody has a password. -/
theorem downgrade_oauth (t : OAuthTables) :
    (everyoneHasPassword t.db = false ∧ downgrade6fe368ffba4d t = none) ∨
      ∃ verifiable, everyoneHasPassword t.db = true ∧
        downgrade6fe368ffba4d t = some verifiable ∧
        verifiable.rows.map nullable = t.db.users ∧ verifiable.nextUserId = t.db.nextUserId := by
  unfold downgrade6fe368ffba4d
  split
  · rename_i h
    exact .inl ⟨mapM_none h, rfl⟩
  · rename_i rows h
    exact .inr ⟨_, all_of_mapM h, rfl, map_nullable h, rfl⟩

/-- The users and the counter are all that the later upgrades look at. -/
theorem reseeded_upgraded (db : Database) {nextUserId : Nat} {rows : List VerifiableRow}
    (hrows : rows.map nullable = db.users) (hid : nextUserId = db.nextUserId) :
    reseeded (upgrade6fe368ffba4d nextUserId rows) =
      reseeded { db with oauthAccounts := [], nextAccountId := 1 } := by
  subst hid
  have husers : (upgrade6fe368ffba4d db.nextUserId rows).users = db.users := hrows
  simp only [reseeded, husers]
  rfl

theorem map_unverified (t : VerifiableTable) :
    (upgrade4a15f12ac674 (downgrade4a15f12ac674 t)).map nullable =
      (t.rows.map nullable).map (setVerified false) := by
  simp only [upgrade4a15f12ac674, downgrade4a15f12ac674, List.map_map]
  rfl

/-- Down to a revision, then to the head. -/
theorem visit_eq (t : HeadTables) (r : Revision) :
    (chain.descend (5 - r.place) (.at5d1b816d2fa2 t)).map headOf = remains t.db r := by
  have heveryone : everyoneHasPassword (withoutRbac t).db = everyoneHasPassword t.db := rfl
  have hthree : chain.descend 3 (.at5d1b816d2fa2 t) =
      (downgrade6fe368ffba4d (withoutRbac t)).map .at4a15f12ac674 := rfl
  have hfour : chain.descend 4 (.at5d1b816d2fa2 t) =
      (chain.descend 3 (.at5d1b816d2fa2 t)).bind downgradeOne := rfl
  have hfive : chain.descend 5 (.at5d1b816d2fa2 t) =
      (chain.descend 4 (.at5d1b816d2fa2 t)).bind downgradeOne := rfl
  cases r with
  | r5d1b816d2fa2 | r49f933ee3842 | r6fe368ffba4d => rfl
  | r4a15f12ac674 =>
    change (chain.descend 3 (.at5d1b816d2fa2 t)).map headOf = _
    rcases downgrade_oauth (withoutRbac t) with
      ⟨hnone, hdown⟩ | ⟨verifiable, hall, hdown, hrows, hid⟩
    · simp [hthree, hdown, remains, ← heveryone, hnone]
    · simp only [hthree, hdown, remains, ← heveryone, hall, Option.map_some, headOf, if_true]
      exact congrArg some (reseeded_upgraded t.db hrows hid)
  | r12e5e041ba67 =>
    change (chain.descend 4 (.at5d1b816d2fa2 t)).map headOf = _
    rcases downgrade_oauth (withoutRbac t) with
      ⟨hnone, hdown⟩ | ⟨verifiable, hall, hdown, hrows, hid⟩
    · simp [hfour, hthree, hdown, remains, ← heveryone, hnone]
    · have hunverified : (upgrade4a15f12ac674 (downgrade4a15f12ac674 verifiable)).map nullable =
          t.db.users.map (setVerified false) := by
        rw [map_unverified, hrows]
        rfl
      simp only [hfour, hthree, hdown, remains, ← heveryone, hall, Option.map_some,
        Option.bind_some, downgradeOne, headOf, if_true]
      exact congrArg some (reseeded_upgraded
        { t.db with users := t.db.users.map (setVerified false) } hunverified hid)
  | base =>
    change (chain.descend 5 (.at5d1b816d2fa2 t)).map headOf = _
    rcases downgrade_oauth (withoutRbac t) with
      ⟨hnone, hdown⟩ | ⟨verifiable, hall, hdown, hrows, hid⟩
    · simp [hfive, hfour, hthree, hdown, remains, ← heveryone, hnone]
    · simp [hfive, hfour, hthree, hdown, remains, ← heveryone, hall, headOf, downgradeOne]

/-- A walk from the head to the head that turns at the revision `r`. -/
def RoundTrip (t : HeadTables) (r : Revision) (t' : HeadTables) : Prop :=
  ∃ h, Run chain.Step (.at5d1b816d2fa2 t) h (.at5d1b816d2fa2 t') ∧
    chain.lowest (.at5d1b816d2fa2 t) h = r.place

theorem roundTrip_iff (t t' : HeadTables) (r : Revision) :
    RoundTrip t r t' ↔ remains t.db r = some t'.db := by
  have hplace : r.place ≤ 5 := by cases r <;> decide
  have hrung : 5 = r.place + (5 - r.place) := by omega
  rw [RoundTrip, Ladder.walk_iff (n := 5 - r.place) (m := 5 - r.place) hrung hrung, ← visit_eq,
    Option.bind_eq_some_iff, Option.map_eq_some_iff]
  refine exists_congr fun w => and_congr_right fun hdescend => ?_
  obtain ⟨n, head, hn, hclimb, hdb⟩ := climb_to_head w
  have hw : 5 = w.revision.place + (5 - r.place) := Ladder.rung_descend hdescend
  obtain rfl : n = 5 - r.place := by omega
  rw [hclimb, ← hdb]
  constructor
  · intro h
    cases h
    rfl
  · intro h
    cases head
    cases t'
    cases h
    rfl

theorem chain_up {t : Tables} (h : t.revision.place < 5) : ∃ t', upgradeOne t = some t' := by
  cases t with
  | base | at12e5e041ba67 _ | at4a15f12ac674 _ | at49f933ee3842 _ => exact ⟨_, rfl⟩
  | at6fe368ffba4d t =>
    obtain ⟨rbac, hrbac⟩ := Option.ne_none_iff_exists'.mp (addRbac_ne_none t)
    exact ⟨.at49f933ee3842 rbac, by rw [upgradeOne, hrbac]; rfl⟩
  | at5d1b816d2fa2 _ => exact absurd h (lt_irrefl 5)

/-- The series of moves leads from the head down to `r`, no further, and back to the head. -/
def Visits (moves : List Move) (r : Revision) : Prop := course 5 5 moves = some (r.place, 5)

example : Visits [.down, .up, .down, .down, .up, .up] .r6fe368ffba4d := rfl

/-- One series does what any other with the same lowest revision does. -/
theorem visits_iff {moves : List Move} {r : Revision} (hvisits : Visits moves r)
    (t t' : HeadTables) :
    (∃ h, Run chain.Step (.at5d1b816d2fa2 t) h (.at5d1b816d2fa2 t') ∧
      h.map Transition.label = moves) ↔ remains t.db r = some t'.db := by
  have hplace : r.place ≤ 5 := by cases r <;> decide
  have hrung : 5 = r.place + (5 - r.place) := by omega
  have hseries : chain.follow (.at5d1b816d2fa2 t) moves =
      (chain.descend (5 - r.place) (.at5d1b816d2fa2 t)).bind (chain.climb (5 - r.place)) :=
    Ladder.follow_eq (L := chain) le_rfl (fun y => chain_up) hvisits
  rw [← Ladder.follow_iff, hseries, ← Ladder.walk_iff hrung hrung]
  exact roundTrip_iff t t' r

/-- The role that 49f933ee3842 grants carries no permission. -/
theorem reseeded_powerless (db : Database) (userId : Nat) :
    (reseeded db).permissionNames userId = [] := by
  have hseeded : ∀ role ∈ seeded.roles, role.id = 3 → seeded.permissionsOf role = [] := by decide
  apply List.flatMap_eq_nil_iff.mpr
  intro role hrole
  obtain ⟨hmem, hpair⟩ := mem_rolesOf.mp hrole
  obtain ⟨u, _, hu⟩ := List.mem_map.mp hpair
  have hid : role.id = 3 := (congrArg Prod.snd hu).symm
  exact List.map_eq_nil_iff.mpr (hseeded role hmem hid)

theorem remains_permissions {db db' : Database} {r : Revision} (h : remains db r = some db')
    {userId : Nat} {name : String} (hname : name ∈ db'.permissionNames userId) :
    name ∈ db.permissionNames userId := by
  cases r with
  | r5d1b816d2fa2 =>
    cases h
    exact hname
  | r49f933ee3842 =>
    cases h
    exact hname
  | r6fe368ffba4d =>
    cases h
    rw [reseeded_powerless] at hname
    cases hname
  | r4a15f12ac674 | r12e5e041ba67 =>
    obtain ⟨_, h⟩ := Option.ite_none_right_eq_some.mp h
    cases h
    rw [reseeded_powerless] at hname
    cases hname
  | base =>
    obtain ⟨_, h⟩ := Option.ite_none_right_eq_some.mp h
    cases h
    have hnone : Database.empty.seedRbacDefaults.permissionNames userId = [] := rfl
    rw [hnone] at hname
    cases hname

/-- Of all upgrades and downgrades between two moments at the head only the lowest revision
matters, whether they succeed and what they leave; each series with this lowest revision succeeds
where one does; and no such series gives anybody a permission. -/
theorem alembic_round_trip (t t' : HeadTables) (r : Revision) :
    (RoundTrip t r t' ↔ remains t.db r = some t'.db) ∧
      (∀ moves, Visits moves r →
        ((∃ h, Run chain.Step (.at5d1b816d2fa2 t) h (.at5d1b816d2fa2 t') ∧
          h.map Transition.label = moves) ↔ remains t.db r = some t'.db)) ∧
      (RoundTrip t r t' → ∀ userId, ∀ name ∈ t'.db.permissionNames userId,
        name ∈ t.db.permissionNames userId) := by
  refine ⟨roundTrip_iff t t' r, fun moves hvisits => visits_iff hvisits t t',
    fun htrip userId name hname => ?_⟩
  exact remains_permissions ((roundTrip_iff t t' r).mp htrip) hname

end RoundTrips

section Lives

/-- The process is what a migration does not touch: the clock, Redis, the tokens and the
mails. While the API runs its tables are those of the head. -/
structure Deployment where
  tables : Tables
  process : Server

inductive Event where
  | alembic (move : Move)
  | api (l : Action × Reply)

end Lives

end FastApiAuth.AlembicWalks
