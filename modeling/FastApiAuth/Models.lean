import FastApiAuth.Library.Tables
import Mathlib.Data.Rat.Defs
import Mathlib.Data.Finset.Basic

/-!
# The PostgreSQL tables

The rows of app/models, the queries the handlers run and the writes they commit.
A write that a declared unique constraint or foreign key refuses is `none`, the
IntegrityError of the commit. `Consistent` is what the constraints enforce.
-/

namespace FastApiAuth

set_option autoImplicit false

open Tables

/-- Instants are seconds since the epoch, with fractions. -/
abbrev Instant := ℚ

structure User where
  id : Nat
  email : String
  hashedPassword : Option String
  isActive : Bool
  isVerified : Bool
  createdAt : Instant
  deriving DecidableEq

structure OAuthAccount where
  id : Nat
  userId : Nat
  provider : String
  providerUserId : String
  email : Option String
  createdAt : Instant
  deriving DecidableEq

structure Permission where
  id : Nat
  name : String
  description : Option String
  deriving DecidableEq

structure Role where
  id : Nat
  name : String
  description : Option String
  deriving DecidableEq

structure FileUpload where
  id : Nat
  userId : Nat
  filename : String
  contentType : String
  category : String
  sizeBytes : Nat
  storageKey : String
  createdAt : Instant
  deriving DecidableEq

/-- `rolePermissions` and `userRoles` are the two association tables; the counters
are the sequences behind the primary keys, which never give a value twice. -/
structure Database where
  users : List User
  oauthAccounts : List OAuthAccount
  permissions : List Permission
  roles : List Role
  rolePermissions : List (Nat × Nat)
  userRoles : List (Nat × Nat)
  fileUploads : List FileUpload
  nextUserId : Nat
  nextAccountId : Nat
  nextPermissionId : Nat
  nextRoleId : Nat

def OAuthAccount.identity (a : OAuthAccount) : String × String := (a.provider, a.providerUserId)

namespace Database

def empty : Database :=
  { users := [], oauthAccounts := [], permissions := [], roles := [], rolePermissions := [],
    userRoles := [], fileUploads := [], nextUserId := 1, nextAccountId := 1,
    nextPermissionId := 1, nextRoleId := 1 }

def userById (db : Database) (i : Int) : Option User :=
  lookup (fun u : User => (u.id : Int)) i db.users

def userByEmail (db : Database) (email : String) : Option User :=
  lookup User.email email db.users

def linkByIdentity (db : Database) (provider providerUserId : String) : Option OAuthAccount :=
  lookup OAuthAccount.identity (provider, providerUserId) db.oauthAccounts

def linkOf (db : Database) (userId : Nat) (provider : String) : Option OAuthAccount :=
  lookup (fun a : OAuthAccount => (a.userId, a.provider)) (userId, provider) db.oauthAccounts

def linksOf (db : Database) (userId : Nat) : List OAuthAccount :=
  db.oauthAccounts.filter fun a => a.userId = userId

def roleByName (db : Database) (name : String) : Option Role :=
  lookup Role.name name db.roles

def permissionByName (db : Database) (name : String) : Option Permission :=
  lookup Permission.name name db.permissions

/-- `user.roles` -/
def rolesOf (db : Database) (userId : Nat) : List Role :=
  db.roles.filter fun r => (userId, r.id) ∈ db.userRoles

/-- `role.permissions` -/
def permissionsOf (db : Database) (r : Role) : List Permission :=
  db.permissions.filter fun p => (r.id, p.id) ∈ db.rolePermissions

/-- `{permission.name for role in user.roles for permission in role.permissions}` -/
def permissionNames (db : Database) (userId : Nat) : List String :=
  (db.rolesOf userId).flatMap fun r => (db.permissionsOf r).map Permission.name

def insertUser (db : Database) (email : String) (hashedPassword : Option String)
    (isActive isVerified : Bool) (createdAt : Instant) (roles : List Role) :
    Option (User × Database) :=
  if db.users.any fun u => u.email = email then none
  else
    let user : User := ⟨db.nextUserId, email, hashedPassword, isActive, isVerified, createdAt⟩
    some (user, { db with
      users := db.users ++ [user]
      userRoles := db.userRoles ++ roles.map fun r => (user.id, r.id)
      nextUserId := db.nextUserId + 1 })

/-- `UPDATE users SET ... WHERE id = userId` on columns without constraints. -/
def amendUser (db : Database) (userId : Nat) (f : User → User) : Database :=
  { db with users := amend User.id userId f db.users }

def setEmail (email : String) (u : User) : User := { u with email }

def setHashedPassword (hash : String) (u : User) : User := { u with hashedPassword := some hash }

def setVerified (isVerified : Bool) (u : User) : User := { u with isVerified }

def setActive (isActive : Bool) (u : User) : User := { u with isActive }

def changeEmail (db : Database) (userId : Nat) (email : String) : Option Database :=
  if db.users.any fun u => u.email = email ∧ u.id ≠ userId then none
  else some (db.amendUser userId (setEmail email))

def insertLink (db : Database) (userId : Nat) (provider providerUserId : String)
    (email : Option String) (createdAt : Instant) : Option Database :=
  if db.oauthAccounts.any fun a => a.identity = (provider, providerUserId) then none
  else if db.users.all fun u => u.id ≠ userId then none
  else
    let link : OAuthAccount :=
      ⟨db.nextAccountId, userId, provider, providerUserId, email, createdAt⟩
    some { db with
      oauthAccounts := db.oauthAccounts ++ [link]
      nextAccountId := db.nextAccountId + 1 }

def deleteLink (db : Database) (accountId : Nat) : Database :=
  { db with oauthAccounts := db.oauthAccounts.filter fun a => a.id ≠ accountId }

/-- `DELETE FROM users`, with the rows of the other tables that follow them. -/
def deleteUsers (db : Database) (doomed : User → Bool) : Database :=
  let kept := db.users.filter fun u => !doomed u
  { db with
    users := kept
    oauthAccounts := db.oauthAccounts.filter fun a => kept.any fun u => u.id = a.userId
    userRoles := db.userRoles.filter fun p => kept.any fun u => u.id = p.1
    fileUploads := db.fileUploads.filter fun f => kept.any fun u => u.id = f.userId }

def addUserRole (db : Database) (userId roleId : Nat) : Database :=
  { db with userRoles := db.userRoles ++ [(userId, roleId)] }

/-- `user.roles = [role for role in user.roles if role.name != role_name]` -/
def dropUserRole (db : Database) (userId : Nat) (roleName : String) : Database :=
  { db with userRoles := db.userRoles.filter fun p =>
      ¬ (p.1 = userId ∧ db.roles.any fun r => r.id = p.2 ∧ r.name = roleName) }

/-- What the primary keys, unique constraints and foreign keys enforce. -/
structure Consistent (db : Database) : Prop where
  userIds : (db.users.map User.id).Nodup
  emails : (db.users.map User.email).Nodup
  userIds_lt : ∀ u ∈ db.users, u.id < db.nextUserId
  accountIds : (db.oauthAccounts.map OAuthAccount.id).Nodup
  identities : (db.oauthAccounts.map OAuthAccount.identity).Nodup
  accountIds_lt : ∀ a ∈ db.oauthAccounts, a.id < db.nextAccountId
  account_user : ∀ a ∈ db.oauthAccounts, ∃ u ∈ db.users, u.id = a.userId
  role_user : ∀ p ∈ db.userRoles, ∃ u ∈ db.users, u.id = p.1

section Queries

variable {db : Database} {i : Int} {e provider providerUserId name : String} {u v : User}
variable {a : OAuthAccount} {userId : Nat}

theorem userById_some (h : db.userById i = some u) : u ∈ db.users ∧ (u.id : Int) = i :=
  lookup_some h

theorem userByEmail_some (h : db.userByEmail e = some u) : u ∈ db.users ∧ u.email = e :=
  lookup_some h

theorem linkByIdentity_none (h : db.linkByIdentity provider providerUserId = none) :
    ∀ a ∈ db.oauthAccounts, a.identity ≠ (provider, providerUserId) :=
  lookup_eq_none_iff.mp h

theorem linkOf_some (h : db.linkOf userId provider = some a) :
    a ∈ db.oauthAccounts ∧ a.userId = userId ∧ a.provider = provider := by
  obtain ⟨ha, hk⟩ := lookup_some h
  exact ⟨ha, (Prod.mk.inj hk).1, (Prod.mk.inj hk).2⟩

theorem roleByName_some {r : Role} (h : db.roleByName name = some r) :
    r ∈ db.roles ∧ r.name = name :=
  lookup_some h

theorem mem_rolesOf {r : Role} :
    r ∈ db.rolesOf userId ↔ r ∈ db.roles ∧ (userId, r.id) ∈ db.userRoles := by
  simp [rolesOf]

theorem mem_permissionNames :
    name ∈ db.permissionNames userId ↔
      ∃ r ∈ db.rolesOf userId, ∃ p ∈ db.permissionsOf r, p.name = name := by
  simp [permissionNames]

namespace Consistent

variable (hc : db.Consistent)
include hc

theorem eq_of_id (hu : u ∈ db.users) (hv : v ∈ db.users) (h : u.id = v.id) : u = v :=
  List.inj_on_of_nodup_map hc.userIds hu hv h

theorem eq_of_email (hu : u ∈ db.users) (hv : v ∈ db.users) (h : u.email = v.email) : u = v :=
  List.inj_on_of_nodup_map hc.emails hu hv h

theorem userById_of_mem (hu : u ∈ db.users) : db.userById u.id = some u := by
  refine lookup_of_mem ?_ hu rfl
  have hmap : db.users.map (fun u => (u.id : Int)) = (db.users.map User.id).map Int.ofNat := by
    simp
  rw [hmap]
  exact hc.userIds.map (fun _ _ h => Int.ofNat.inj h)

theorem userByEmail_of_mem (hu : u ∈ db.users) (h : u.email = e) : db.userByEmail e = some u :=
  lookup_of_mem hc.emails hu h

end Consistent

end Queries

section Writes

variable {db db' : Database} {u user : User} {email e provider providerUserId : String}
variable {hash : Option String} {isActive isVerified : Bool} {at' : Instant} {roles : List Role}
variable {userId : Nat} {f : User → User}

/-- What a successful `INSERT INTO users` leaves. -/
theorem insertUser_some
    (h : db.insertUser email hash isActive isVerified at' roles = some (user, db')) :
    (∀ u ∈ db.users, u.email ≠ email) ∧
    user = ⟨db.nextUserId, email, hash, isActive, isVerified, at'⟩ ∧
    db' = { db with
      users := db.users ++ [user]
      userRoles := db.userRoles ++ roles.map fun r => (user.id, r.id)
      nextUserId := db.nextUserId + 1 } := by
  unfold insertUser at h
  split at h
  · cases h
  · rename_i hfree
    simp only [List.any_eq_true, decide_eq_true_eq, not_exists, not_and] at hfree
    cases h
    exact ⟨hfree, rfl, rfl⟩

theorem insertUser_of_free (h : ∀ u ∈ db.users, u.email ≠ email) :
    ∃ user db', db.insertUser email hash isActive isVerified at' roles = some (user, db') := by
  unfold insertUser
  rw [if_neg]
  · exact ⟨_, _, rfl⟩
  · simpa using h

theorem insertUser_consistent (hc : db.Consistent)
    (h : db.insertUser email hash isActive isVerified at' roles = some (user, db')) :
    db'.Consistent := by
  obtain ⟨hfree, huser, rfl⟩ := insertUser_some h
  have hid : user.id = db.nextUserId := by rw [huser]
  have hemail : user.email = email := by rw [huser]
  have hnew : ∀ u ∈ db.users, u.id ≠ user.id := by
    intro u hu he
    have := hc.userIds_lt u hu
    omega
  refine { hc with
    userIds := ?_, emails := ?_, userIds_lt := ?_, account_user := ?_, role_user := ?_ }
  · exact nodup_append_fresh hc.userIds hnew
  · exact nodup_append_fresh hc.emails (fun u hu => hemail ▸ hfree u hu)
  · intro u hu
    rcases List.mem_append.mp hu with hu | hu
    · exact Nat.lt_succ_of_lt (hc.userIds_lt u hu)
    · rw [List.mem_singleton.mp hu, hid]
      exact Nat.lt_succ_self _
  · intro a ha
    obtain ⟨u, hu, he⟩ := hc.account_user a ha
    exact ⟨u, List.mem_append_left _ hu, he⟩
  · intro p hp
    rcases List.mem_append.mp hp with hp | hp
    · obtain ⟨u, hu, he⟩ := hc.role_user p hp
      exact ⟨u, List.mem_append_left _ hu, he⟩
    · obtain ⟨r, _, rfl⟩ := List.mem_map.mp hp
      exact ⟨user, by simp, rfl⟩

theorem mem_amendUser :
    u ∈ (db.amendUser userId f).users ↔ ∃ v ∈ db.users, (if v.id = userId then f v else v) = u :=
  mem_amend

/-- A row after an update: the old row, or the rewritten row of `userId`. -/
theorem amendUser_origin (hf : ∀ u, (f u).id = u.id) (h : u ∈ (db.amendUser userId f).users) :
    ∃ v ∈ db.users, v.id = u.id ∧ (u = v ∨ (v.id = userId ∧ u = f v)) :=
  origin_of_mem_amend hf h

theorem exists_amendUser_of_mem (userId : Nat) (hf : ∀ u, (f u).id = u.id) (h : u ∈ db.users) :
    ∃ v ∈ (db.amendUser userId f).users, v.id = u.id := by
  refine ⟨_, mem_amendUser.mpr ⟨u, h, rfl⟩, ?_⟩
  split
  · exact hf u
  · rfl

theorem amendUser_consistent (hc : db.Consistent) (hid : ∀ u, (f u).id = u.id)
    (hemail : ((db.amendUser userId f).users.map User.email).Nodup) :
    (db.amendUser userId f).Consistent := by
  refine { hc with
    userIds := ?_, emails := hemail, userIds_lt := ?_, account_user := ?_, role_user := ?_ }
  · rw [show (db.amendUser userId f).users.map User.id = db.users.map User.id from map_amend _ hid]
    exact hc.userIds
  · intro u hu
    obtain ⟨v, hv, he, _⟩ := amendUser_origin hid hu
    exact he ▸ hc.userIds_lt v hv
  · intro a ha
    obtain ⟨u, hu, he⟩ := hc.account_user a ha
    obtain ⟨v, hv, hvu⟩ := exists_amendUser_of_mem userId hid hu
    exact ⟨v, hv, hvu.trans he⟩
  · intro p hp
    obtain ⟨u, hu, he⟩ := hc.role_user p hp
    obtain ⟨v, hv, hvu⟩ := exists_amendUser_of_mem userId hid hu
    exact ⟨v, hv, hvu.trans he⟩

/-- Updates of columns other than `id` and `email`. -/
theorem amendUser_consistent_of_email (hc : db.Consistent) (hid : ∀ u, (f u).id = u.id)
    (hemail : ∀ u, (f u).email = u.email) : (db.amendUser userId f).Consistent := by
  apply amendUser_consistent hc hid
  rw [show (db.amendUser userId f).users.map User.email = db.users.map User.email from
    map_amend _ hemail]
  exact hc.emails

theorem changeEmail_some (h : db.changeEmail userId email = some db') :
    (∀ u ∈ db.users, u.id ≠ userId → u.email ≠ email) ∧
      db' = db.amendUser userId (setEmail email) := by
  unfold changeEmail at h
  split at h
  · cases h
  · rename_i hfree
    simp only [List.any_eq_true, decide_eq_true_eq, not_exists, not_and] at hfree
    cases h
    exact ⟨fun u hu hid he => hfree u hu he hid, rfl⟩

theorem changeEmail_of_free (h : ∀ u ∈ db.users, u.id ≠ userId → u.email ≠ email) :
    db.changeEmail userId email = some (db.amendUser userId (setEmail email)) := by
  unfold changeEmail
  rw [if_neg]
  simp only [List.any_eq_true, decide_eq_true_eq, not_exists, not_and]
  exact fun u hu he hid => h u hu hid he

theorem changeEmail_consistent (hc : db.Consistent) (h : db.changeEmail userId email = some db') :
    db'.Consistent := by
  obtain ⟨hfree, rfl⟩ := changeEmail_some h
  have hid : ∀ u, (setEmail email u).id = u.id := fun _ => rfl
  apply amendUser_consistent hc hid
  exact nodup_amend_of_free hc.userIds hc.emails (fun _ => rfl) hfree

/-- What a successful `INSERT INTO oauth_accounts` leaves. -/
theorem insertLink_some {linkEmail : Option String}
    (h : db.insertLink userId provider providerUserId linkEmail at' = some db') :
    (∀ a ∈ db.oauthAccounts, a.identity ≠ (provider, providerUserId)) ∧
    (∃ u ∈ db.users, u.id = userId) ∧
    db' = { db with
      oauthAccounts := db.oauthAccounts ++
        [⟨db.nextAccountId, userId, provider, providerUserId, linkEmail, at'⟩]
      nextAccountId := db.nextAccountId + 1 } := by
  unfold insertLink at h
  split at h
  · cases h
  · rename_i hfree
    split at h
    · cases h
    · rename_i huser
      simp only [List.any_eq_true, decide_eq_true_eq, not_exists, not_and] at hfree
      simp only [List.all_eq_true, decide_eq_true_eq, not_forall, Classical.not_not] at huser
      obtain ⟨u, hu, he⟩ := huser
      cases h
      exact ⟨hfree, ⟨u, hu, he⟩, rfl⟩

theorem insertLink_of_free {linkEmail : Option String}
    (hfree : ∀ a ∈ db.oauthAccounts, a.identity ≠ (provider, providerUserId))
    (huser : ∃ u ∈ db.users, u.id = userId) :
    ∃ db', db.insertLink userId provider providerUserId linkEmail at' = some db' := by
  unfold insertLink
  rw [if_neg (by simpa using hfree), if_neg]
  · exact ⟨_, rfl⟩
  · obtain ⟨u, hu, he⟩ := huser
    simp only [List.all_eq_true, decide_eq_true_eq, not_forall, Classical.not_not]
    exact ⟨u, hu, he⟩

theorem insertLink_consistent {linkEmail : Option String} (hc : db.Consistent)
    (h : db.insertLink userId provider providerUserId linkEmail at' = some db') :
    db'.Consistent := by
  obtain ⟨hfree, ⟨u, hu, he⟩, rfl⟩ := insertLink_some h
  refine { hc with accountIds := ?_, identities := ?_, accountIds_lt := ?_, account_user := ?_ }
  · exact nodup_append_fresh hc.accountIds (fun a ha => (hc.accountIds_lt a ha).ne)
  · exact nodup_append_fresh hc.identities hfree
  · intro a ha
    rcases List.mem_append.mp ha with ha | ha
    · exact Nat.lt_succ_of_lt (hc.accountIds_lt a ha)
    · rw [List.mem_singleton.mp ha]
      exact Nat.lt_succ_self _
  · intro a ha
    rcases List.mem_append.mp ha with ha | ha
    · exact hc.account_user a ha
    · rw [List.mem_singleton.mp ha]
      exact ⟨u, hu, he⟩

/-- The link of a freshly inserted user is accepted if its identity was free before. -/
theorem exists_link_of_insertUser {linkEmail : Option String} {linkAt : Instant}
    (h : db.insertUser email hash isActive isVerified at' roles = some (user, db'))
    (hfree : db.linkByIdentity provider providerUserId = none) :
    ∃ db'', db'.insertLink user.id provider providerUserId linkEmail linkAt = some db'' := by
  obtain ⟨_, _, rfl⟩ := insertUser_some h
  exact insertLink_of_free (linkByIdentity_none hfree) ⟨user, by simp, rfl⟩

theorem deleteLink_consistent (hc : db.Consistent) (accountId : Nat) :
    (db.deleteLink accountId).Consistent :=
  { hc with
    accountIds := nodup_filter _ hc.accountIds
    identities := nodup_filter _ hc.identities
    accountIds_lt := fun a ha => hc.accountIds_lt a (List.mem_of_mem_filter ha)
    account_user := fun a ha => hc.account_user a (List.mem_of_mem_filter ha) }

theorem mem_deleteUsers {doomed : User → Bool} :
    u ∈ (db.deleteUsers doomed).users ↔ u ∈ db.users ∧ doomed u = false := by
  simp [deleteUsers]

theorem deleteUsers_consistent (hc : db.Consistent) (doomed : User → Bool) :
    (db.deleteUsers doomed).Consistent := by
  refine { hc with
    userIds := nodup_filter _ hc.userIds, emails := nodup_filter _ hc.emails,
    userIds_lt := fun u hu => hc.userIds_lt u (List.mem_of_mem_filter hu),
    accountIds := nodup_filter _ hc.accountIds, identities := nodup_filter _ hc.identities,
    accountIds_lt := fun a ha => hc.accountIds_lt a (List.mem_of_mem_filter ha),
    account_user := ?_, role_user := ?_ }
  · intro a ha
    simpa only [deleteUsers, List.any_eq_true, decide_eq_true_eq] using (List.mem_filter.mp ha).2
  · intro p hp
    simpa only [deleteUsers, List.any_eq_true, decide_eq_true_eq] using (List.mem_filter.mp hp).2

theorem addUserRole_consistent (hc : db.Consistent) {roleId : Nat} (hu : u ∈ db.users) :
    (db.addUserRole u.id roleId).Consistent := by
  refine { hc with role_user := ?_ }
  intro p hp
  rcases List.mem_append.mp hp with hp | hp
  · exact hc.role_user p hp
  · rw [List.mem_singleton.mp hp]
    exact ⟨u, hu, rfl⟩

theorem dropUserRole_consistent (hc : db.Consistent) (userId : Nat) (roleName : String) :
    (db.dropUserRole userId roleName).Consistent :=
  { hc with role_user := fun p hp => hc.role_user p (List.mem_of_mem_filter hp) }

end Writes

end Database

end FastApiAuth
