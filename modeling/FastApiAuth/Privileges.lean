import FastApiAuth.Effects

/-!
# Roles and the permission to manage them

The seeded RBAC tables are never written by a request, new users get the role
`user` at most, and a row of the association table is added only by assign_role
for a requester who holds roles:manage. So nobody comes to hold it in a run that
starts without a holder.
-/

namespace FastApiAuth.Privileges

set_option autoImplicit false

open Database

def seeded : Database := empty.seedRbacDefaults

/-- Any users, but the roles, the permissions and their association as seeded. -/
structure SeededRbac (db : Database) : Prop where
  roles : db.roles = seeded.roles
  permissions : db.permissions = seeded.permissions
  rolePermissions : db.rolePermissions = seeded.rolePermissions

/-- The ways a row of user_roles can stand in the table after the action `a`. -/
inductive RoleOrigin (s : Server) : Action → Nat × Nat → Prop where
  | kept {a : Action} {p : Nat × Nat} : p ∈ s.db.userRoles → RoleOrigin s a p
  | registered {clientHost : String} {body : UserCreate} {broker : Bool} {role : Role} :
      s.db.roleByName defaultUserRoleName = some role →
      RoleOrigin s (.request (.register clientHost body broker)) (s.db.nextUserId, role.id)
  | assigned {credentials : Token} {roleName : String} {pushed : Bool} {admin user : User}
      {role : Role} :
      getCurrentUser s credentials = .ok admin →
      "roles:manage" ∈ s.db.permissionNames admin.id →
      user ∈ s.db.users → s.db.roleByName roleName = some role →
      RoleOrigin s (.request (.assignRole credentials user.id roleName pushed)) (user.id, role.id)
  | granted {userId : Nat} {roleName : String} {p : Nat × Nat} :
      RoleOrigin s (.grantBySql userId roleName) p

section Steps

variable {env : Env} {s s' : Server} {a : Action} {l : Action × Reply}

theorem role_origin {db : Database} {new : List Issued} {p : Nat × Nat}
    (h : Effect env s a db new) (hp : p ∈ db.userRoles) : RoleOrigin s a p := by
  cases h with
  | quiet | session _ _ | resetMinted _ _ _ _ | verified _ _ _ _ _ | passwordReset _ _ _ _ _ _
  | unlinked _ _ _ | passwordChanged _ _ _ _ | deactivated _ | statusUpdated _ _ => exact .kept hp
  | registered _ _ _ hins _ _ =>
    obtain ⟨_, huser, rfl⟩ := insertUser_some hins
    rcases List.mem_append.mp hp with hp | hp
    · exact .kept hp
    · obtain ⟨role, hrole, rfl⟩ := List.mem_map.mp hp
      rw [huser]
      exact .registered (Option.mem_toList.mp hrole)
  | signedUp _ _ hins hlink _ =>
    obtain ⟨_, _, rfl⟩ := insertUser_some hins
    obtain ⟨_, _, rfl⟩ := insertLink_some hlink
    exact .kept (by simpa using hp)
  | autoLinked _ _ _ hlink _ =>
    obtain ⟨_, _, rfl⟩ := insertLink_some hlink
    exact .kept hp
  | linked _ _ hlink _ =>
    obtain ⟨_, _, rfl⟩ := insertLink_some hlink
    exact .kept hp
  | emailChanged _ _ hdb =>
    obtain ⟨_, rfl⟩ := changeEmail_some hdb
    exact .kept hp
  | roleAssigned hadmin huser hrole _ =>
    obtain ⟨hadmin, hperms⟩ := requirePermissions_ok hadmin
    obtain ⟨hmem, rfl⟩ := userById_some huser
    rcases List.mem_append.mp hp with hp | hp
    · exact .kept hp
    · rw [List.mem_singleton.mp hp]
      exact .assigned hadmin (hperms _ (by simp)) hmem hrole
  | roleRevoked _ _ => exact .kept (List.mem_of_mem_filter hp)
  | cleaned => exact .kept (List.mem_of_mem_filter hp)
  | grantedBySql _ _ => exact .granted

/-- No action writes the tables of roles and permissions. -/
theorem effect_rbac {db : Database} {new : List Issued} (h : Effect env s a db new) :
    db.roles = s.db.roles ∧ db.permissions = s.db.permissions ∧
      db.rolePermissions = s.db.rolePermissions := by
  cases h with
  | registered _ _ _ hins _ _ =>
    obtain ⟨_, _, rfl⟩ := insertUser_some hins
    exact ⟨rfl, rfl, rfl⟩
  | signedUp _ _ hins hlink _ =>
    obtain ⟨_, _, rfl⟩ := insertUser_some hins
    obtain ⟨_, _, rfl⟩ := insertLink_some hlink
    exact ⟨rfl, rfl, rfl⟩
  | autoLinked _ _ _ hlink _ | linked _ _ hlink _ =>
    obtain ⟨_, _, rfl⟩ := insertLink_some hlink
    exact ⟨rfl, rfl, rfl⟩
  | emailChanged _ _ hdb =>
    obtain ⟨_, rfl⟩ := changeEmail_some hdb
    exact ⟨rfl, rfl, rfl⟩
  | _ => exact ⟨rfl, rfl, rfl⟩

theorem effect_seeded {db : Database} {new : List Issued} (h : Effect env s a db new)
    (hs : SeededRbac s.db) : SeededRbac db := by
  obtain ⟨hroles, hpermissions, hlinks⟩ := effect_rbac h
  exact ⟨hroles.trans hs.roles, hpermissions.trans hs.permissions, hlinks.trans hs.rolePermissions⟩

theorem step_role_origin {p : Nat × Nat} (h : Step env s l s') (hp : p ∈ s'.db.userRoles) :
    RoleOrigin s l.1 p := by
  obtain ⟨_, _, heff⟩ := (step_effect h).effect
  exact role_origin heff hp

theorem step_seeded (hs : SeededRbac s.db) (h : Step env s l s') : SeededRbac s'.db := by
  obtain ⟨_, _, heff⟩ := (step_effect h).effect
  exact effect_seeded heff hs

end Steps

section Seeded

variable {db : Database} {role other : Role} {name : String}

theorem SeededRbac.role_unique (hs : SeededRbac db) (hr : role ∈ db.roles)
    (hother : other ∈ db.roles) (hid : role.id = other.id) : role = other := by
  have hnodup : (seeded.roles.map Role.id).Nodup := by decide
  rw [hs.roles] at hr hother
  exact List.inj_on_of_nodup_map hnodup hr hother hid

theorem SeededRbac.permissionsOf (hs : SeededRbac db) (role : Role) :
    db.permissionsOf role = seeded.permissionsOf role := by
  unfold Database.permissionsOf
  rw [hs.permissions, hs.rolePermissions]

/-- The role of new users carries no permission at all. -/
theorem SeededRbac.default_role_powerless (hs : SeededRbac db)
    (hr : db.roleByName defaultUserRoleName = some role) : db.permissionsOf role = [] := by
  have hseeded : ∀ role ∈ seeded.roles, role.name = defaultUserRoleName →
      seeded.permissionsOf role = [] := by decide
  obtain ⟨hmem, hname⟩ := roleByName_some hr
  rw [hs.permissionsOf]
  exact hseeded role (hs.roles ▸ hmem) hname

end Seeded

/-- The user holds roles:manage through its current roles. -/
def ManagesRoles (db : Database) (u : User) : Prop := "roles:manage" ∈ db.permissionNames u.id

/-- The transition is a call of assign_role, for `u` and a role of that name, whose
requester holds roles:manage at that step. -/
def AssignedByManager (t : ApiTransition) (u : User) (role : Role) : Prop :=
  ∃ credentials admin pushed,
    t.label.1 = .request (.assignRole credentials u.id role.name pushed) ∧
    getCurrentUser t.source credentials = .ok admin ∧ ManagesRoles t.source.db admin

section Laws

variable {env : Env} {s s' : Server} {l : Action × Reply} {u : User} {role : Role}

theorem role_gain_assigned (hc : s.db.Consistent) (hs : SeededRbac s.db) (h : Step env s l s')
    (hsql : ∀ userId roleName, l.1 ≠ .grantBySql userId roleName) (hu : u ∈ s.db.users)
    (hgained : role ∈ s'.db.rolesOf u.id) (hbefore : role ∉ s.db.rolesOf u.id) :
    AssignedByManager ⟨s, l, s'⟩ u role := by
  obtain ⟨a, reply⟩ := l
  obtain ⟨hrole, hrow⟩ := mem_rolesOf.mp hgained
  rw [(step_seeded hs h).roles, ← hs.roles] at hrole
  generalize hp : (u.id, role.id) = p at hrow
  cases step_role_origin h hrow with
  | kept hkept => exact absurd (mem_rolesOf.mpr ⟨hrole, hp ▸ hkept⟩) hbefore
  | registered _ => exact absurd (Prod.mk.inj hp).1 (hc.userIds_lt u hu).ne
  | assigned hadmin hmanages huser hname =>
    obtain ⟨hid, hroleId⟩ := Prod.mk.inj hp
    obtain ⟨hmem, hroleName⟩ := roleByName_some hname
    obtain rfl := hc.eq_of_id hu huser hid
    obtain rfl := hs.role_unique hrole hmem hroleId
    subst hroleName
    exact ⟨_, _, _, rfl, hadmin, hmanages⟩
  | granted => exact absurd rfl (hsql _ _)

/-- A row that was not there before has no role but `user`. -/
theorem new_user_default_role (hc : s.db.Consistent) (hs : SeededRbac s.db) (h : Step env s l s')
    (hsql : ∀ userId roleName, l.1 ≠ .grantBySql userId roleName)
    (hnew : ∀ v ∈ s.db.users, v.id ≠ u.id) (hrole : role ∈ s'.db.rolesOf u.id) :
    role.name = defaultUserRoleName := by
  obtain ⟨a, reply⟩ := l
  obtain ⟨hmem, hrow⟩ := mem_rolesOf.mp hrole
  rw [(step_seeded hs h).roles, ← hs.roles] at hmem
  generalize hp : (u.id, role.id) = p at hrow
  cases step_role_origin h hrow with
  | kept hkept =>
    obtain ⟨v, hv, hid⟩ := hc.role_user _ hkept
    rw [← hp] at hid
    exact absurd hid (hnew v hv)
  | registered hname =>
    obtain ⟨hmem', hroleName⟩ := roleByName_some hname
    obtain rfl := hs.role_unique hmem hmem' (Prod.mk.inj hp).2
    exact hroleName
  | assigned _ _ huser _ => exact absurd (Prod.mk.inj hp).1.symm (hnew _ huser)
  | granted => exact absurd rfl (hsql _ _)

theorem no_manager_step (hc : s.db.Consistent) (hs : SeededRbac s.db) (h : Step env s l s')
    (hsql : ∀ userId roleName, l.1 ≠ .grantBySql userId roleName)
    (hnone : ∀ u ∈ s.db.users, ¬ ManagesRoles s.db u) : ¬ ManagesRoles s'.db u := by
  obtain ⟨a, reply⟩ := l
  intro hmanages
  obtain ⟨role, hrole, hperm⟩ := mem_permissionNames.mp hmanages
  obtain ⟨hmem, hrow⟩ := mem_rolesOf.mp hrole
  have hseeded := step_seeded hs h
  rw [hseeded.roles, ← hs.roles] at hmem
  rw [hseeded.permissionsOf, ← hs.permissionsOf] at hperm
  generalize hp : (u.id, role.id) = p at hrow
  cases step_role_origin h hrow with
  | kept hkept =>
    obtain ⟨v, hv, hid⟩ := hc.role_user _ hkept
    have hrolesOf : role ∈ s.db.rolesOf v.id := by
      refine mem_rolesOf.mpr ⟨hmem, ?_⟩
      rw [hid, ← hp]
      exact hp ▸ hkept
    exact hnone v hv (mem_permissionNames.mpr ⟨role, hrolesOf, hperm⟩)
  | registered hname =>
    obtain ⟨hmem', _⟩ := roleByName_some hname
    obtain rfl := hs.role_unique hmem hmem' (Prod.mk.inj hp).2
    obtain ⟨p, hp, _⟩ := hperm
    rw [hs.default_role_powerless hname] at hp
    cases hp
  | assigned hadmin hmanages _ _ => exact hnone _ (getCurrentUser_mem hadmin) hmanages
  | granted => exact hsql _ _ rfl

end Laws

theorem no_privilege_escalation {env : Env} {s₀ s : Server} {h : List ApiTransition}
    (hc : s₀.db.Consistent) (hs : SeededRbac s₀.db) (r : ApiRun env s₀ h s)
    (hsql : ∀ t ∈ h, ∀ userId roleName, t.label.1 ≠ .grantBySql userId roleName) :
    (∀ t ∈ h, ∀ u ∈ t.source.db.users, ∀ role ∈ t.target.db.rolesOf u.id,
      role ∉ t.source.db.rolesOf u.id → AssignedByManager t u role) ∧
    (∀ t ∈ h, ∀ u ∈ t.target.db.users, (∀ v ∈ t.source.db.users, v.id ≠ u.id) →
      ∀ role ∈ t.target.db.rolesOf u.id, role.name = "user") ∧
    ((∀ u ∈ s₀.db.users, ¬ ManagesRoles s₀.db u) → ∀ u ∈ s.db.users, ¬ ManagesRoles s.db u) := by
  have tables : ∀ {h s}, ApiRun env s₀ h s → s.db.Consistent ∧ SeededRbac s.db := by
    intro h s r
    exact ⟨r.consistent hc, r.invariant (I := fun s => SeededRbac s.db) hs step_seeded⟩
  refine ⟨?_, ?_, ?_⟩
  · intro t ht u hu role hgained hbefore
    obtain ⟨before, _, rb, hstep⟩ := r.step_of_mem ht
    obtain ⟨hc, hs⟩ := tables rb
    exact role_gain_assigned hc hs hstep (hsql t ht) hu hgained hbefore
  · intro t ht u _ hnew role hrole
    obtain ⟨before, _, rb, hstep⟩ := r.step_of_mem ht
    obtain ⟨hc, hs⟩ := tables rb
    exact new_user_default_role hc hs hstep (hsql t ht) hnew hrole
  · intro hnone
    have hg : Runs.Guarded
        (fun _ t => ∀ userId roleName, t.label.1 ≠ .grantBySql userId roleName) h :=
      Runs.guarded_of_forall_mem hsql
    refine r.guarded_invariant (I := fun _ s => ∀ u ∈ s.db.users, ¬ ManagesRoles s.db u) hnone ?_ hg
    intro h s l s' r hnone hstep hsql u _
    obtain ⟨hc, hs⟩ := tables r
    exact no_manager_step hc hs hstep hsql hnone

/-- Two users have registered and verified; the first one is made admin by SQL and
has logged in. -/
def sampleServer : Server :=
  Runs.exec (step asciiEnv) (freshServer 0)
    [.request (.register "localhost" ⟨"a@example.com", "Passw0rd"⟩ true),
      .request (.register "localhost" ⟨"b@example.com", "Passw0rd"⟩ true),
      .request (.verifyEmail ⟨"1", "email_verification", "uuid1", 0, 1800⟩),
      .grantBySql 1 "admin",
      .request (.login "localhost" ⟨"a@example.com", "Passw0rd"⟩)]

def sampleAssignment : Action :=
  .request (.assignRole ⟨"a@example.com", "access", "uuid4", 0, 1800⟩ 2 "moderator" true)

def moderator : Role := ⟨2, "moderator", some "Can view and moderate user accounts"⟩

theorem no_privilege_escalation_sample :
    AssignedByManager
      ⟨sampleServer, (sampleAssignment, (step asciiEnv sampleServer sampleAssignment).1),
        (step asciiEnv sampleServer sampleAssignment).2⟩
      ⟨2, "b@example.com", some "Passw0rd$2", true, false, 0⟩ moderator :=
  (no_privilege_escalation
    (ApiRun.consistent (freshServer_initial 0).consistent (Runs.run_trace _ _ _))
    ⟨by decide +kernel, by decide +kernel, by decide +kernel⟩
    (Runs.run_trace (step asciiEnv) sampleServer [sampleAssignment])
    (by simp [Runs.trace, sampleAssignment])).1
    _ (by simp [Runs.trace]) _ (by decide +kernel) _ (by decide +kernel) (by decide +kernel)

end FastApiAuth.Privileges
