import FastApiAuth.UnlinkLockout

/-!
# The migration chain on a populated table

src/migrations/versions, from the users table of 12e5e041ba67 to the tables of the
current code. 49f933ee3842 grants the rows it finds the role they need; 4a15f12ac674
gives them an unverified flag, which login_user refuses and the cleanup collects.
-/

namespace FastApiAuth.Migrations

set_option autoImplicit false

open Database UnlinkLockout

/-- A row of users at revision 12e5e041ba67. -/
structure UserRow where
  id : Nat
  email : String
  hashedPassword : String
  isActive : Bool
  createdAt : Instant

/-- The only table of that revision, with its primary key and its unique index. -/
structure UsersTable where
  rows : List UserRow
  nextUserId : Nat
  userIds : (rows.map UserRow.id).Nodup
  emails : (rows.map UserRow.email).Nodup
  userIds_lt : ∀ u ∈ rows, u.id < nextUserId

/-- A row at revision 4a15f12ac674. -/
structure VerifiableRow extends UserRow where
  isVerified : Bool

/-- add_column with `server_default=sa.false()` -/
def upgrade4a15f12ac674 (t : UsersTable) : List VerifiableRow :=
  t.rows.map fun u => { u with isVerified := false }

/-- The password becomes nullable and oauth_accounts is created. A table that a later
revision creates is empty until then. -/
def upgrade6fe368ffba4d (nextUserId : Nat) (rows : List VerifiableRow) : Database :=
  { Database.empty with
    users := rows.map fun u =>
      { id := u.id, email := u.email, hashedPassword := some u.hashedPassword,
        isActive := u.isActive, isVerified := u.isVerified, createdAt := u.createdAt }
    nextUserId }

section RbacMigration

def seedPermissions : List (String × String) :=
  [("users:read", "View any user's account"), ("users:write", "Update any user's account"),
    ("users:delete", "Deactivate any user's account"), ("roles:manage", "Assign or revoke roles")]

def seedRoles : List (String × String) :=
  [("admin", "Full administrative access"), ("moderator", "Can view and moderate user accounts"),
    ("user", "Standard authenticated user")]

def seedRolePermissions : List (String × List String) :=
  [("admin", ["users:read", "users:write", "users:delete", "roles:manage"]),
    ("moderator", ["users:read", "users:write"]), ("user", [])]

/-- Insert the permissions and collect `permission_ids`. -/
def insertPermissions (db : Database) : List (String × String) → Database × List (String × Nat)
  | [] => (db, [])
  | entry :: entries =>
    let (db', permissionIds) := insertPermissions { db with
      permissions := db.permissions ++ [⟨db.nextPermissionId, entry.1, some entry.2⟩]
      nextPermissionId := db.nextPermissionId + 1 } entries
    (db', (entry.1, db.nextPermissionId) :: permissionIds)

/-- Insert the roles and collect `role_ids`. -/
def insertRoles (db : Database) : List (String × String) → Database × List (String × Nat)
  | [] => (db, [])
  | entry :: entries =>
    let (db', roleIds) := insertRoles { db with
      roles := db.roles ++ [⟨db.nextRoleId, entry.1, some entry.2⟩]
      nextRoleId := db.nextRoleId + 1 } entries
    (db', (entry.1, db.nextRoleId) :: roleIds)

/-- The rows of role_permissions; `none` is the KeyError of a name that is not seeded. -/
def rolePermissionRows (roleIds permissionIds : List (String × Nat)) :
    List (String × List String) → Option (List (Nat × Nat))
  | [] => some []
  | entry :: entries => do
    let roleId ← roleIds.lookup entry.1
    let granted ← entry.2.mapM fun name => permissionIds.lookup name
    let rest ← rolePermissionRows roleIds permissionIds entries
    some (granted.map (fun permissionId => (roleId, permissionId)) ++ rest)

/-- Create and seed the four tables, then grant every row of users the role "user". -/
def upgrade49f933ee3842 (db : Database) : Option Database := do
  let (db, permissionIds) := insertPermissions db seedPermissions
  let (db, roleIds) := insertRoles db seedRoles
  let rolePermissions ← rolePermissionRows roleIds permissionIds seedRolePermissions
  let userRoleId ← roleIds.lookup "user"
  some { db with
    rolePermissions := db.rolePermissions ++ rolePermissions
    userRoles := db.userRoles ++ db.users.map fun u => (u.id, userRoleId) }

/-- create_table on file_uploads -/
def upgrade5d1b816d2fa2 (db : Database) : Database := { db with fileUploads := [] }

/-- All four revisions in their order. -/
def upgrade (t : UsersTable) : Option Database :=
  (upgrade49f933ee3842 (upgrade6fe368ffba4d t.nextUserId (upgrade4a15f12ac674 t))).map
    upgrade5d1b816d2fa2

/-- What becomes of a row. -/
def UserRow.migrated (u : UserRow) : User :=
  ⟨u.id, u.email, some u.hashedPassword, u.isActive, false, u.createdAt⟩

theorem upgrade6fe368ffba4d_users (t : UsersTable) :
    (upgrade6fe368ffba4d t.nextUserId (upgrade4a15f12ac674 t)).users =
      t.rows.map UserRow.migrated := by
  simp [upgrade6fe368ffba4d, upgrade4a15f12ac674, UserRow.migrated]

/-- The seeds are those that a new deployment gets; "user" is the third role. -/
theorem upgrade49f933ee3842_eq (users : List User) (nextUserId : Nat) :
    upgrade49f933ee3842 { Database.empty with users, nextUserId } =
      some { Database.empty.seedRbacDefaults with
        users, nextUserId, userRoles := users.map fun u => (u.id, 3) } :=
  rfl

/-- The chain succeeds on every table. -/
theorem upgrade_eq (t : UsersTable) :
    upgrade t = some { Database.empty.seedRbacDefaults with
      users := t.rows.map UserRow.migrated
      nextUserId := t.nextUserId
      userRoles := t.rows.map fun u => (u.id, 3) } := by
  have husers := upgrade6fe368ffba4d_users t
  have hstart : upgrade6fe368ffba4d t.nextUserId (upgrade4a15f12ac674 t) =
      { Database.empty with
        users := t.rows.map UserRow.migrated, nextUserId := t.nextUserId } := by
    rw [← husers]
    rfl
  have hgrants : (t.rows.map UserRow.migrated).map (fun u => (u.id, 3)) =
      t.rows.map fun u => (u.id, 3) := by
    simp [UserRow.migrated]
  rw [upgrade, hstart, upgrade49f933ee3842_eq, hgrants]
  rfl

theorem upgrade_consistent {t : UsersTable} {db : Database} (h : upgrade t = some db) :
    db.Consistent := by
  rw [upgrade_eq] at h
  cases h
  have hlinks : Database.empty.seedRbacDefaults.oauthAccounts = [] := rfl
  refine ⟨?_, ?_, ?_, ?_, ?_, ?_, ?_, ?_⟩
  · simpa [UserRow.migrated, Function.comp_def] using t.userIds
  · simpa [UserRow.migrated, Function.comp_def] using t.emails
  · simpa [UserRow.migrated] using t.userIds_lt
  · simp [hlinks]
  · simp [hlinks]
  · simp [hlinks]
  · simp [hlinks]
  · simp only [List.mem_map, UserRow.migrated, forall_exists_index, and_imp,
      forall_apply_eq_imp_iff₂]
    exact fun u hu => ⟨_, ⟨u, hu, rfl⟩, rfl⟩

/-- The migrated tables are ones that a run can start from. -/
theorem migrated_initial {t : UsersTable} {db : Database} (h : upgrade t = some db)
    (now : Instant) : Initial { freshServer now with db } :=
  ⟨upgrade_consistent h, rfl, rfl, rfl⟩

/-- The row is as usable as before: with `password` it logs in under the same address,
it holds the role "user", and the cleanup leaves it there. -/
structure StaysUsable (env : Env) (password : String) (s : Server) (u : UserRow) : Prop where
  logsIn : AnswersFor (loginUser env u.email password s).1 u.migrated
  holdsRole : ∃ role ∈ s.db.rolesOf u.id, role.name = defaultUserRoleName
  kept : ∃ v ∈ (cleanupUnverifiedUsers s).db.users, v.id = u.id

end RbacMigration

section Rows

variable {env : Env} {t : UsersTable} {s : Server} {u : UserRow} {password : String}

theorem mem_migrated (h : upgrade t = some s.db) {v : User} :
    v ∈ s.db.users ↔ ∃ u ∈ t.rows, u.migrated = v := by
  rw [upgrade_eq] at h
  rw [← Option.some_inj.mp h]
  exact List.mem_map

/-- Nobody the migrations have seen logs in. -/
theorem not_logsIn (h : upgrade t = some s.db) :
    ¬ AnswersFor (loginUser env u.email password s).1 u.migrated := by
  apply loginUser_rule (P := fun o => ¬ AnswersFor o.1 u.migrated)
  · exact fun e _ => not_answersFor_error e
  · exact fun _ _ _ _ _ => not_answersFor_error _
  · intro v _ hv _ _ hverified
    obtain ⟨w, _, rfl⟩ := (mem_migrated h).mp (userByEmail_some hv).1
    cases hverified

/-- With the right password and a lower-case address the answer is the 403 of an
unverified address. -/
theorem loginUser_migrated (h : upgrade t = some s.db) (hu : u ∈ t.rows)
    (hlower : env.lower u.email = u.email)
    (hpassword : env.verify password u.hashedPassword = true) :
    loginUser env u.email password s = (.error emailNotVerified, s) := by
  have hfound : s.db.userByEmail (env.lower u.email) = some u.migrated :=
    (upgrade_consistent h).userByEmail_of_mem ((mem_migrated h).mpr ⟨u, hu, rfl⟩) hlower.symm
  have hhash : u.migrated.hashedPassword = some u.hashedPassword := rfl
  have hverified : u.migrated.isVerified = false := rfl
  unfold loginUser
  simp only [hfound, hhash, verifyPassword_ofString, hpassword, hverified]
  rfl

theorem holdsRole (h : upgrade t = some s.db) (hu : u ∈ t.rows) :
    ∃ role ∈ s.db.rolesOf u.id, role.name = defaultUserRoleName := by
  rw [upgrade_eq] at h
  rw [← Option.some_inj.mp h]
  refine ⟨⟨3, "user", some "Standard authenticated user"⟩, mem_rolesOf.mpr ⟨?_, ?_⟩, rfl⟩
  · have hmem : (⟨3, "user", some "Standard authenticated user"⟩ : Role) ∈
        Database.empty.seedRbacDefaults.roles := by decide
    exact hmem
  · exact List.mem_map.mpr ⟨u, hu, rfl⟩

theorem kept_iff (h : upgrade t = some s.db) (hu : u ∈ t.rows) :
    (∃ v ∈ (cleanupUnverifiedUsers s).db.users, v.id = u.id) ↔
      s.now - unverifiedUserMaxAgeDays * (24 * 60 * 60) ≤ u.createdAt := by
  have hfresh : staleAt s.now u.migrated = false ↔
      s.now - unverifiedUserMaxAgeDays * (24 * 60 * 60) ≤ u.createdAt := by
    simp only [staleAt, UserRow.migrated, Bool.not_false, Bool.true_and]
    exact decide_eq_false_iff_not.trans not_lt
  rw [← hfresh]
  constructor
  · rintro ⟨v, hv, hid⟩
    obtain ⟨hmem, hkept⟩ := mem_deleteUsers.mp hv
    obtain ⟨w, hw, rfl⟩ := (mem_migrated h).mp hmem
    obtain rfl : w = u := List.inj_on_of_nodup_map t.userIds hw hu hid
    exact hkept
  · intro hkept
    exact ⟨u.migrated, mem_deleteUsers.mpr ⟨(mem_migrated h).mpr ⟨u, hu, rfl⟩, hkept⟩, rfl⟩

end Rows

/-- For every table and whatever the server does next to the migrated tables: all
active rows stay usable if and only if there are none. The role is always there,
the row is kept when it is young enough, and the login always fails. -/
theorem migrated_users_stay_usable_iff {env : Env} (t : UsersTable) (passwords : UserRow → String) :
    ∃ db, upgrade t = some db ∧ ∀ s : Server, s.db = db →
      ((∀ u ∈ t.rows, u.isActive = true → StaysUsable env (passwords u) s u) ↔
        ∀ u ∈ t.rows, u.isActive = false) ∧
      ∀ u ∈ t.rows,
        ¬ AnswersFor (loginUser env u.email (passwords u) s).1 u.migrated ∧
        (∃ role ∈ s.db.rolesOf u.id, role.name = defaultUserRoleName) ∧
        ((∃ v ∈ (cleanupUnverifiedUsers s).db.users, v.id = u.id) ↔
          s.now - unverifiedUserMaxAgeDays * (24 * 60 * 60) ≤ u.createdAt) := by
  refine ⟨_, upgrade_eq t, fun s hs => ⟨⟨fun hall u hu => ?_, fun hnone u hu hactive => ?_⟩,
    fun u hu => ?_⟩⟩
  · have h : upgrade t = some s.db := hs ▸ upgrade_eq t
    by_contra hactive
    exact not_logsIn h (hall u hu (by simpa using hactive)).logsIn
  · rw [hnone u hu] at hactive
    cases hactive
  · have h : upgrade t = some s.db := hs ▸ upgrade_eq t
    exact ⟨not_logsIn h, holdsRole h hu, kept_iff h hu⟩

/-- One active user of eight days ago. -/
def sampleRow : UserRow := ⟨1, "a@example.com", "Passw0rd$0", true, 0⟩

def sampleTable : UsersTable :=
  { rows := [sampleRow], nextUserId := 2, userIds := by decide, emails := by decide,
    userIds_lt := by decide }

/-- The tables after the upgrade, eight days later. -/
def migratedServer : Server :=
  { freshServer (8 * 24 * 60 * 60) with db := (upgrade sampleTable).getD Database.empty }

theorem migrated_users_stay_usable_iff_sample :
    (∀ u ∈ sampleTable.rows, u.isActive = true →
      StaysUsable asciiEnv "Passw0rd" migratedServer u) ↔
    ∀ u ∈ sampleTable.rows, u.isActive = false := by
  obtain ⟨db, hdb, husable⟩ :=
    @migrated_users_stay_usable_iff asciiEnv sampleTable fun _ => "Passw0rd"
  have hs : migratedServer.db = db := by
    change (upgrade sampleTable).getD Database.empty = db
    rw [hdb]
    rfl
  exact (husable migratedServer hs).1

/-- The right password of an active user is refused after the upgrade, and the next
cleanup takes the row away. -/
theorem migrated_user_locked_out :
    upgrade sampleTable = some migratedServer.db ∧ sampleRow ∈ sampleTable.rows ∧
      sampleRow.isActive = true ∧ asciiEnv.verify "Passw0rd" sampleRow.hashedPassword = true ∧
      loginUser asciiEnv sampleRow.email "Passw0rd" migratedServer =
        (.error emailNotVerified, migratedServer) ∧
      (cleanupUnverifiedUsers migratedServer).db.users = [] := by
  have hupgrade : upgrade sampleTable = some migratedServer.db := upgrade_eq sampleTable
  refine ⟨hupgrade, List.mem_singleton_self _, rfl, by decide +kernel, ?_, by decide +kernel⟩
  exact loginUser_migrated hupgrade (List.mem_singleton_self _) (by decide +kernel)
    (by decide +kernel)

end FastApiAuth.Migrations
