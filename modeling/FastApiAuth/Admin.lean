import FastApiAuth.Users

/-!
# app/core/rbac.py, app/api/admin.py and app/tasks/cleanup.py
-/

namespace FastApiAuth

set_option autoImplicit false

section Seeding

def defaultPermissions : List (String × String) :=
  [("users:read", "View any user's account"), ("users:write", "Update any user's account"),
    ("users:delete", "Deactivate any user's account"), ("roles:manage", "Assign or revoke roles")]

def defaultRoles : List (String × String) :=
  [("admin", "Full administrative access"), ("moderator", "Can view and moderate user accounts"),
    ("user", "Standard authenticated user")]

/-- `ROLE_PERMISSIONS.get(role_name, set())` -/
def rolePermissions : String → List String
  | "admin" => ["users:read", "users:write", "users:delete", "roles:manage"]
  | "moderator" => ["users:read", "users:write"]
  | _ => []

end Seeding

namespace Database

def ensurePermission (db : Database) (entry : String × String) : Database :=
  match db.permissionByName entry.1 with
  | some _ => db
  | none => { db with
      permissions := db.permissions ++ [⟨db.nextPermissionId, entry.1, some entry.2⟩]
      nextPermissionId := db.nextPermissionId + 1 }

def ensureRole (db : Database) (entry : String × String) : Role × Database :=
  match db.roleByName entry.1 with
  | some role => (role, db)
  | none =>
    let role : Role := ⟨db.nextRoleId, entry.1, some entry.2⟩
    (role, { db with roles := db.roles ++ [role], nextRoleId := db.nextRoleId + 1 })

/-- One round of the loop over the roles: the role and its missing permissions. -/
def seedRole (db : Database) (entry : String × String) : Database :=
  let (role, db) := db.ensureRole entry
  let current := (db.permissionsOf role).map Permission.name
  let missing := (FastApiAuth.rolePermissions entry.1).filter fun name => name ∉ current
  let links := missing.filterMap fun name =>
    (db.permissionByName name).map fun p => (role.id, p.id)
  { db with rolePermissions := db.rolePermissions ++ links }

def seedRbacDefaults (db : Database) : Database :=
  defaultRoles.foldl seedRole (defaultPermissions.foldl ensurePermission db)

end Database

section Endpoints

/-- The fields of the payload that are present overwrite the row's. -/
def AdminUserUpdate.apply (payload : AdminUserUpdate) (u : User) : User :=
  { u with
    isActive := payload.isActive.getD u.isActive
    isVerified := payload.isVerified.getD u.isVerified }

variable (env : Env)

def updateUserStatus (userId : Int) (payload : AdminUserUpdate) (s : Server) : Outcome :=
  match s.db.userById userId with
  | none => (.error userNotFound, s)
  | some user =>
    let s := { s with db := s.db.amendUser user.id payload.apply }
    (userResponse env s (payload.apply user), s)

def adminDeactivateUser (userId : Int) (s : Server) : Outcome :=
  match s.db.userById userId with
  | none => (.error userNotFound, s)
  | some user => deactivateUser user s

def listRoles (s : Server) : Outcome := (.ok (.roleResponses s.db.roles), s)

def roleNotFound : HttpException := { statusCode := 404, detail := "Role not found" }

/-- `pushed` says whether publish_to_user returns, which is called after the commit. -/
def assignRole (userId : Int) (roleName : String) (pushed : Bool) (s : Server) : Outcome :=
  match s.db.userById userId with
  | none => (.error userNotFound, s)
  | some user =>
    match s.db.roleByName roleName with
    | none => (.error roleNotFound, s)
    | some role =>
      if role ∈ s.db.rolesOf user.id then (userResponse env s user, s)
      else
        let s := { s with db := s.db.addUserRole user.id role.id }
        if !pushed then (.error internalServerError, s) else (userResponse env s user, s)

def revokeRole (userId : Int) (roleName : String) (s : Server) : Outcome :=
  match s.db.userById userId with
  | none => (.error userNotFound, s)
  | some user =>
    let s := { s with db := s.db.dropUserRole user.id roleName }
    (userResponse env s user, s)

end Endpoints

section ScheduledCleanup

def unverifiedUserMaxAgeDays : Nat := 7

/-- The `WHERE` of the task's query. -/
def staleAt (now : Instant) (u : User) : Bool :=
  !u.isVerified && u.createdAt < now - unverifiedUserMaxAgeDays * (24 * 60 * 60)

def cleanupUnverifiedUsers (s : Server) : Server :=
  { s with db := s.db.deleteUsers (staleAt s.now) }

end ScheduledCleanup

end FastApiAuth
