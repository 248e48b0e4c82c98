import FastApiAuth.Admin

/-!
# What seed_rbac_defaults leaves, whatever it finds

The two loops of the seeding over tables in which any of the defaults may be missing and any
further roles, permissions and links may stand.
-/

namespace FastApiAuth.RbacSeeding

set_option autoImplicit false

open Database Tables

/-- What the constraints of the three tables enforce; ids come from their sequences. -/
structure RbacConsistent (db : Database) : Prop where
  permissionIds : (db.permissions.map Permission.id).Nodup
  permissionNames : (db.permissions.map Permission.name).Nodup
  permissionIds_lt : ∀ p ∈ db.permissions, p.id < db.nextPermissionId
  roleIds : (db.roles.map Role.id).Nodup
  roleNames : (db.roles.map Role.name).Nodup
  roleIds_lt : ∀ r ∈ db.roles, r.id < db.nextRoleId
  links : db.rolePermissions.Nodup
  link_role : ∀ l ∈ db.rolePermissions, ∃ r ∈ db.roles, r.id = l.1
  link_permission : ∀ l ∈ db.rolePermissions, ∃ p ∈ db.permissions, p.id = l.2

def HasPermission (db : Database) (name : String) : Prop := ∃ p ∈ db.permissions, p.name = name

def HasRole (db : Database) (name : String) : Prop := ∃ r ∈ db.roles, r.name = name

/-- The role holds a permission of this name. -/
def Holds (db : Database) (r : Role) (name : String) : Prop :=
  ∃ p ∈ db.permissions, p.name = name ∧ (r.id, p.id) ∈ db.rolePermissions

/-- The default role is there with everything it is to hold. -/
structure RoleReady (db : Database) (entry : String × String) : Prop where
  exists_role : HasRole db entry.1
  holds : ∀ r ∈ db.roles, r.name = entry.1 → ∀ name ∈ rolePermissions entry.1, Holds db r name

def IsDefaultPermission (p : Permission) : Prop :=
  ∃ entry ∈ defaultPermissions, p.name = entry.1 ∧ p.description = some entry.2

def IsDefaultRole (r : Role) : Prop :=
  ∃ entry ∈ defaultRoles, r.name = entry.1 ∧ r.description = some entry.2

/-- The link from a default role to one of the permissions it is to hold. -/
def IsDefaultLink (db : Database) (l : Nat × Nat) : Prop :=
  ∃ r ∈ db.roles, ∃ p ∈ db.permissions, l = (r.id, p.id) ∧ r.name ∈ defaultRoles.map Prod.fst ∧
    p.name ∈ rolePermissions r.name

/-- Every row and link is kept, and what comes behind them are defaults that were missing. -/
structure Extends (db db' : Database) : Prop where
  permissions : ∃ added, db'.permissions = db.permissions ++ added ∧
    ∀ p ∈ added, IsDefaultPermission p ∧ ¬ HasPermission db p.name
  roles : ∃ added, db'.roles = db.roles ++ added ∧
    ∀ r ∈ added, IsDefaultRole r ∧ ¬ HasRole db r.name
  links : ∃ added, db'.rolePermissions = db.rolePermissions ++ added ∧
    ∀ l ∈ added, IsDefaultLink db' l
  frame : db' = { db with
    permissions := db'.permissions, roles := db'.roles, rolePermissions := db'.rolePermissions,
    nextPermissionId := db'.nextPermissionId, nextRoleId := db'.nextRoleId }

section Growth

variable {db db₁ db₂ : Database} {name : String} {entry : String × String} {r : Role}

theorem Extends.refl (db : Database) : Extends db db :=
  ⟨⟨[], by simp, by simp⟩, ⟨[], by simp, by simp⟩, ⟨[], by simp, by simp⟩, rfl⟩

theorem Extends.mem_permissions (h : Extends db db₁) {p : Permission} (hp : p ∈ db.permissions) :
    p ∈ db₁.permissions := by
  obtain ⟨added, heq, _⟩ := h.permissions
  exact heq ▸ List.mem_append_left added hp

theorem Extends.mem_roles (h : Extends db db₁) (hr : r ∈ db.roles) : r ∈ db₁.roles := by
  obtain ⟨added, heq, _⟩ := h.roles
  exact heq ▸ List.mem_append_left added hr

theorem Extends.mem_links (h : Extends db db₁) {l : Nat × Nat} (hl : l ∈ db.rolePermissions) :
    l ∈ db₁.rolePermissions := by
  obtain ⟨added, heq, _⟩ := h.links
  exact heq ▸ List.mem_append_left added hl

theorem Extends.hasPermission (h : Extends db db₁) (hp : HasPermission db name) :
    HasPermission db₁ name := by
  obtain ⟨p, hp, hname⟩ := hp
  exact ⟨p, h.mem_permissions hp, hname⟩

theorem Extends.hasRole (h : Extends db db₁) (hr : HasRole db name) : HasRole db₁ name := by
  obtain ⟨r, hr, hname⟩ := hr
  exact ⟨r, h.mem_roles hr, hname⟩

theorem Extends.holds (h : Extends db db₁) (hr : Holds db r name) : Holds db₁ r name := by
  obtain ⟨p, hp, hname, hl⟩ := hr
  exact ⟨p, h.mem_permissions hp, hname, h.mem_links hl⟩

theorem Extends.isDefaultLink (h : Extends db db₁) {l : Nat × Nat} (hl : IsDefaultLink db l) :
    IsDefaultLink db₁ l := by
  obtain ⟨r, hr, p, hp, heq, hnames⟩ := hl
  exact ⟨r, h.mem_roles hr, p, h.mem_permissions hp, heq, hnames⟩

theorem Extends.trans (h₁ : Extends db db₁) (h₂ : Extends db₁ db₂) : Extends db db₂ := by
  refine ⟨?_, ?_, ?_, ?_⟩
  · obtain ⟨added₁, heq₁, hnew₁⟩ := h₁.permissions
    obtain ⟨added₂, heq₂, hnew₂⟩ := h₂.permissions
    refine ⟨added₁ ++ added₂, by rw [heq₂, heq₁, List.append_assoc], ?_⟩
    intro p hp
    rcases List.mem_append.mp hp with hp | hp
    · exact hnew₁ p hp
    · exact ⟨(hnew₂ p hp).1, fun hold => (hnew₂ p hp).2 (h₁.hasPermission hold)⟩
  · obtain ⟨added₁, heq₁, hnew₁⟩ := h₁.roles
    obtain ⟨added₂, heq₂, hnew₂⟩ := h₂.roles
    refine ⟨added₁ ++ added₂, by rw [heq₂, heq₁, List.append_assoc], ?_⟩
    intro r hr
    rcases List.mem_append.mp hr with hr | hr
    · exact hnew₁ r hr
    · exact ⟨(hnew₂ r hr).1, fun hold => (hnew₂ r hr).2 (h₁.hasRole hold)⟩
  · obtain ⟨added₁, heq₁, hnew₁⟩ := h₁.links
    obtain ⟨added₂, heq₂, hnew₂⟩ := h₂.links
    refine ⟨added₁ ++ added₂, by rw [heq₂, heq₁, List.append_assoc], ?_⟩
    intro l hl
    rcases List.mem_append.mp hl with hl | hl
    · exact h₂.isDefaultLink (hnew₁ l hl)
    · exact hnew₂ l hl
  · rw [h₂.frame, h₁.frame]

/-- A default role that is ready stays so: a role of its name is not added again. -/
theorem RoleReady.extends (hready : RoleReady db entry) (h : Extends db db₁) :
    RoleReady db₁ entry := by
  refine ⟨h.hasRole hready.exists_role, ?_⟩
  intro r hr hname name hwanted
  obtain ⟨added, heq, hnew⟩ := h.roles
  rw [heq] at hr
  rcases List.mem_append.mp hr with hr | hr
  · exact h.holds (hready.holds r hr hname name hwanted)
  · exact absurd (hname ▸ hready.exists_role) (hnew r hr).2

end Growth

section Rounds

variable {db : Database} {entry : String × String} {role : Role} {wanted : List String}
variable {name : String} {l : Nat × Nat}

theorem permission_round (hc : RbacConsistent db) (hentry : entry ∈ defaultPermissions) :
    RbacConsistent (db.ensurePermission entry) ∧ Extends db (db.ensurePermission entry) ∧
      HasPermission (db.ensurePermission entry) entry.1 := by
  unfold ensurePermission
  split
  · rename_i p hp
    obtain ⟨hmem, hname⟩ := lookup_some hp
    exact ⟨hc, Extends.refl db, p, hmem, hname⟩
  · rename_i hnone
    have hfree := lookup_eq_none_iff.mp hnone
    refine ⟨{ hc with
        permissionIds := ?_, permissionNames := ?_, permissionIds_lt := ?_, link_permission := ?_ },
      ⟨?_, ⟨[], by simp, by simp⟩, ⟨[], by simp, by simp⟩, rfl⟩, ?_⟩
    · exact nodup_append_fresh hc.permissionIds (fun p hp => (hc.permissionIds_lt p hp).ne)
    · exact nodup_append_fresh hc.permissionNames hfree
    · intro p hp
      rcases List.mem_append.mp hp with hp | hp
      · exact Nat.lt_succ_of_lt (hc.permissionIds_lt p hp)
      · rw [List.mem_singleton.mp hp]
        exact Nat.lt_succ_self _
    · intro l hl
      obtain ⟨p, hp, hid⟩ := hc.link_permission l hl
      exact ⟨p, List.mem_append_left _ hp, hid⟩
    · refine ⟨_, rfl, ?_⟩
      intro p hp
      rw [List.mem_singleton.mp hp]
      refine ⟨⟨entry, hentry, rfl, rfl⟩, ?_⟩
      rintro ⟨q, hq, hname⟩
      exact hfree q hq hname
    · exact ⟨_, List.mem_append_right _ (List.mem_singleton_self _), rfl⟩

theorem role_added (hc : RbacConsistent db) (hentry : entry ∈ defaultRoles) :
    RbacConsistent (db.ensureRole entry).2 ∧ Extends db (db.ensureRole entry).2 ∧
      (db.ensureRole entry).1 ∈ (db.ensureRole entry).2.roles ∧
      (db.ensureRole entry).1.name = entry.1 := by
  unfold ensureRole
  split
  · rename_i role hrole
    obtain ⟨hmem, hname⟩ := lookup_some hrole
    exact ⟨hc, Extends.refl db, hmem, hname⟩
  · rename_i hnone
    have hfree := lookup_eq_none_iff.mp hnone
    refine ⟨{ hc with roleIds := ?_, roleNames := ?_, roleIds_lt := ?_, link_role := ?_ },
      ⟨⟨[], by simp, by simp⟩, ?_, ⟨[], by simp, by simp⟩, rfl⟩, ?_, rfl⟩
    · exact nodup_append_fresh hc.roleIds (fun r hr => (hc.roleIds_lt r hr).ne)
    · exact nodup_append_fresh hc.roleNames hfree
    · intro r hr
      rcases List.mem_append.mp hr with hr | hr
      · exact Nat.lt_succ_of_lt (hc.roleIds_lt r hr)
      · rw [List.mem_singleton.mp hr]
        exact Nat.lt_succ_self _
    · intro l hl
      obtain ⟨r, hr, hid⟩ := hc.link_role l hl
      exact ⟨r, List.mem_append_left _ hr, hid⟩
    · refine ⟨_, rfl, ?_⟩
      intro r hr
      rw [List.mem_singleton.mp hr]
      refine ⟨⟨entry, hentry, rfl, rfl⟩, ?_⟩
      rintro ⟨q, hq, hname⟩
      exact hfree q hq hname
    · exact List.mem_append_right _ (List.mem_singleton_self _)

/-- The rows that a round adds to `role_permissions`. -/
def missingLinks (db : Database) (role : Role) (wanted : List String) : List (Nat × Nat) :=
  (wanted.filter fun name => name ∉ (db.permissionsOf role).map Permission.name).filterMap
    fun name => (db.permissionByName name).map fun p => (role.id, p.id)

def addLinks (db : Database) (links : List (Nat × Nat)) : Database :=
  { db with rolePermissions := db.rolePermissions ++ links }

theorem seedRole_eq (db : Database) (entry : String × String) :
    db.seedRole entry = addLinks (db.ensureRole entry).2
      (missingLinks (db.ensureRole entry).2 (db.ensureRole entry).1
        (FastApiAuth.rolePermissions entry.1)) := rfl

theorem mem_permissionsOf_names :
    name ∈ (db.permissionsOf role).map Permission.name ↔ Holds db role name := by
  simp only [permissionsOf, List.mem_map, List.mem_filter, decide_eq_true_eq, Holds]
  constructor
  · rintro ⟨p, ⟨hp, hl⟩, hname⟩
    exact ⟨p, hp, hname, hl⟩
  · rintro ⟨p, hp, hname, hl⟩
    exact ⟨p, ⟨hp, hl⟩, hname⟩

theorem mem_missingLinks :
    l ∈ missingLinks db role wanted ↔ ∃ name ∈ wanted, ¬ Holds db role name ∧
      ∃ p, db.permissionByName name = some p ∧ (role.id, p.id) = l := by
  simp only [missingLinks, List.mem_filterMap, List.mem_filter, decide_eq_true_eq,
    mem_permissionsOf_names, Option.map_eq_some_iff, and_assoc]

theorem missingLinks_fresh (hl : l ∈ missingLinks db role wanted) : l ∉ db.rolePermissions := by
  obtain ⟨name, _, hmissing, p, hp, rfl⟩ := mem_missingLinks.mp hl
  intro hold
  obtain ⟨hmem, hname⟩ := lookup_some hp
  exact hmissing ⟨p, hmem, hname, hold⟩

theorem missingLinks_nodup (hc : RbacConsistent db) (hwanted : wanted.Nodup) :
    (missingLinks db role wanted).Nodup := by
  apply List.Nodup.filterMap
  · intro name₁ name₂ l h₁ h₂
    obtain ⟨p₁, hp₁, rfl⟩ := Option.map_eq_some_iff.mp h₁
    obtain ⟨p₂, hp₂, heq⟩ := Option.map_eq_some_iff.mp h₂
    obtain ⟨hmem₁, hname₁⟩ := lookup_some hp₁
    obtain ⟨hmem₂, hname₂⟩ := lookup_some hp₂
    have hid : p₂.id = p₁.id := (Prod.mk.inj heq).2
    rw [← hname₁, ← hname₂, List.inj_on_of_nodup_map hc.permissionIds hmem₂ hmem₁ hid]
  · exact hwanted.filter _

theorem rolePermissions_nodup (name : String) : (FastApiAuth.rolePermissions name).Nodup := by
  unfold FastApiAuth.rolePermissions
  split <;> decide

theorem role_round (hc : RbacConsistent db) (hentry : entry ∈ defaultRoles)
    (hpermissions : ∀ name ∈ FastApiAuth.rolePermissions entry.1, HasPermission db name) :
    RbacConsistent (db.seedRole entry) ∧ Extends db (db.seedRole entry) ∧
      RoleReady (db.seedRole entry) entry := by
  obtain ⟨hc₁, hextends, hmem, hname⟩ := role_added hc hentry
  rw [seedRole_eq]
  generalize (db.ensureRole entry).1 = role at hmem hname ⊢
  generalize (db.ensureRole entry).2 = db₁ at hc₁ hextends hmem ⊢
  have hlink : ∀ l ∈ missingLinks db₁ role (FastApiAuth.rolePermissions entry.1),
      IsDefaultLink db₁ l := by
    intro l hl
    obtain ⟨name, hwanted, _, p, hp, rfl⟩ := mem_missingLinks.mp hl
    obtain ⟨hpmem, hpname⟩ := lookup_some hp
    refine ⟨role, hmem, p, hpmem, rfl, ?_, ?_⟩
    · rw [hname]
      exact List.mem_map_of_mem hentry
    · rw [hname, hpname]
      exact hwanted
  have hgrown : Extends db₁
      (addLinks db₁ (missingLinks db₁ role (FastApiAuth.rolePermissions entry.1))) :=
    ⟨⟨[], (List.append_nil _).symm, by simp⟩, ⟨[], (List.append_nil _).symm, by simp⟩,
      ⟨_, rfl, hlink⟩, rfl⟩
  refine ⟨{ hc₁ with links := ?_, link_role := ?_, link_permission := ?_ },
    hextends.trans hgrown, ⟨role, hmem, hname⟩, ?_⟩
  · apply List.nodup_append.mpr
    refine ⟨hc₁.links, missingLinks_nodup hc₁ (rolePermissions_nodup entry.1), ?_⟩
    rintro l hold _ hl rfl
    exact missingLinks_fresh hl hold
  · intro l hl
    rcases List.mem_append.mp hl with hl | hl
    · exact hc₁.link_role l hl
    · obtain ⟨r, hr, _, _, rfl, _⟩ := hlink l hl
      exact ⟨r, hr, rfl⟩
  · intro l hl
    rcases List.mem_append.mp hl with hl | hl
    · exact hc₁.link_permission l hl
    · obtain ⟨_, _, p, hp, rfl, _⟩ := hlink l hl
      exact ⟨p, hp, rfl⟩
  · intro r hr hrname name hwanted
    obtain rfl := List.inj_on_of_nodup_map hc₁.roleNames hr hmem (hrname.trans hname.symm)
    by_cases hheld : Holds db₁ r name
    · exact hgrown.holds hheld
    · obtain ⟨p, hp, hpname⟩ := hextends.hasPermission (hpermissions name hwanted)
      have hfound := lookup_of_mem hc₁.permissionNames hp hpname
      refine ⟨p, hp, hpname, List.mem_append_right _ ?_⟩
      exact mem_missingLinks.mpr ⟨name, hwanted, hheld, p, hfound, rfl⟩

end Rounds

section Loops

universe u v

variable {σ : Type u} {ε : Type v} {f : σ → ε → σ} {I : σ → Prop} {R : σ → σ → Prop}
variable {P : σ → ε → Prop} {s : σ} {es : List ε}

/-- A loop whose rounds stay within `R` and establish `P` for their elements, where `R` never
takes `P` away. -/
theorem foldl_establishes (hrefl : ∀ s, R s s) (htrans : ∀ {s t u}, R s t → R t u → R s u)
    (hkeeps : ∀ {s t e}, R s t → P s e → P t e)
    (hround : ∀ s, ∀ e ∈ es, I s → I (f s e) ∧ R s (f s e) ∧ P (f s e) e) (hs : I s) :
    I (es.foldl f s) ∧ R s (es.foldl f s) ∧ ∀ e ∈ es, P (es.foldl f s) e := by
  induction es generalizing s with
  | nil => exact ⟨hs, hrefl s, by simp⟩
  | cons e es ih =>
    obtain ⟨hI, hR, hP⟩ := hround s e List.mem_cons_self hs
    obtain ⟨hI', hR', hP'⟩ := ih (fun s a ha => hround s a (List.mem_cons_of_mem e ha)) hI
    refine ⟨hI', htrans hR hR', ?_⟩
    intro a ha
    rcases List.mem_cons.mp ha with rfl | ha
    · exact hkeeps hR' hP
    · exact hP' a ha

/-- A loop of rounds that change nothing changes nothing. -/
theorem foldl_idle (hround : ∀ e ∈ es, f s e = s) : es.foldl f s = s := by
  induction es with
  | nil => rfl
  | cons e es ih =>
    rw [List.foldl_cons, hround e List.mem_cons_self]
    exact ih fun a ha => hround a (List.mem_cons_of_mem e ha)

end Loops

section Seeding

variable {db : Database} {entry : String × String}

/-- Every default is there, and each default role is ready. -/
structure Complete (db : Database) : Prop where
  permissions : ∀ entry ∈ defaultPermissions, HasPermission db entry.1
  roles : ∀ entry ∈ defaultRoles, RoleReady db entry

theorem wanted_is_default : ∀ entry ∈ defaultRoles,
    ∀ name ∈ FastApiAuth.rolePermissions entry.1, ∃ p ∈ defaultPermissions, p.1 = name := by
  decide

theorem permissions_loop (hc : RbacConsistent db) :
    RbacConsistent (defaultPermissions.foldl ensurePermission db) ∧
      Extends db (defaultPermissions.foldl ensurePermission db) ∧
      ∀ entry ∈ defaultPermissions,
        HasPermission (defaultPermissions.foldl ensurePermission db) entry.1 :=
  foldl_establishes (f := ensurePermission) (I := RbacConsistent) (R := Extends)
    (P := fun db entry => HasPermission db entry.1) Extends.refl Extends.trans
    Extends.hasPermission (fun _ _ hentry hc => permission_round hc hentry) hc

theorem roles_loop (hc : RbacConsistent db)
    (hpermissions : ∀ entry ∈ defaultPermissions, HasPermission db entry.1) :
    RbacConsistent (defaultRoles.foldl seedRole db) ∧
      Extends db (defaultRoles.foldl seedRole db) ∧
      ∀ entry ∈ defaultRoles, RoleReady (defaultRoles.foldl seedRole db) entry := by
  have hloop := foldl_establishes (f := seedRole) (R := Extends) (P := RoleReady)
    (I := fun s => RbacConsistent s ∧ ∀ entry ∈ defaultPermissions, HasPermission s entry.1)
    Extends.refl Extends.trans (fun h hready => hready.extends h)
    (fun s entry hentry hs => by
      have hwanted : ∀ name ∈ FastApiAuth.rolePermissions entry.1, HasPermission s name := by
        intro name hname
        obtain ⟨p, hp, rfl⟩ := wanted_is_default entry hentry name hname
        exact hs.2 p hp
      obtain ⟨hc, hextends, hready⟩ := role_round hs.1 hentry hwanted
      exact ⟨⟨hc, fun p hp => hextends.hasPermission (hs.2 p hp)⟩, hextends, hready⟩)
    ⟨hc, hpermissions⟩
  exact ⟨hloop.1.1, hloop.2⟩

theorem seed_spec (hc : RbacConsistent db) :
    RbacConsistent db.seedRbacDefaults ∧ Extends db db.seedRbacDefaults ∧
      Complete db.seedRbacDefaults := by
  obtain ⟨hc₁, hextends₁, hpermissions⟩ := permissions_loop hc
  obtain ⟨hc₂, hextends₂, hroles⟩ := roles_loop hc₁ hpermissions
  refine ⟨hc₂, hextends₁.trans hextends₂, ?_, hroles⟩
  intro entry hentry
  exact hextends₂.hasPermission (hpermissions entry hentry)

theorem ensurePermission_idle (h : HasPermission db entry.1) :
    db.ensurePermission entry = db := by
  obtain ⟨p, hp, hname⟩ := h
  unfold ensurePermission
  split
  · rfl
  · rename_i hnone
    exact absurd hname (lookup_eq_none_iff.mp hnone p hp)

theorem seedRole_idle (h : RoleReady db entry) : db.seedRole entry = db := by
  obtain ⟨⟨r, hr, hname⟩, hholds⟩ := h
  have hensure : ∃ role ∈ db.roles, role.name = entry.1 ∧ db.ensureRole entry = (role, db) := by
    unfold ensureRole
    split
    · rename_i role hrole
      obtain ⟨hmem, hrname⟩ := lookup_some hrole
      exact ⟨role, hmem, hrname, rfl⟩
    · rename_i hnone
      exact absurd hname (lookup_eq_none_iff.mp hnone r hr)
  obtain ⟨role, hmem, hrname, hensure⟩ := hensure
  have hnothing : missingLinks db role (FastApiAuth.rolePermissions entry.1) = [] := by
    apply List.eq_nil_iff_forall_not_mem.mpr
    intro l hl
    obtain ⟨name, hwanted, hmissing, _⟩ := mem_missingLinks.mp hl
    exact hmissing (hholds role hmem hrname name hwanted)
  rw [seedRole_eq, hensure, hnothing, addLinks, List.append_nil]

theorem seed_idle (h : Complete db) : db.seedRbacDefaults = db := by
  unfold seedRbacDefaults
  rw [foldl_idle fun entry hentry => ensurePermission_idle (h.permissions entry hentry)]
  exact foldl_idle fun entry hentry => seedRole_idle (h.roles entry hentry)

end Seeding

/-- Over any tables the constraints allow, the seeding adds just the defaults that are missing,
keeps every row and link in its place, repeats no link, and finds nothing to do the second
time. -/
theorem seed_converges {db : Database} (hc : RbacConsistent db) :
    Complete db.seedRbacDefaults ∧ Extends db db.seedRbacDefaults ∧
      RbacConsistent db.seedRbacDefaults ∧
      db.seedRbacDefaults.seedRbacDefaults = db.seedRbacDefaults := by
  obtain ⟨hc', hextends, hcomplete⟩ := seed_spec hc
  exact ⟨hcomplete, hextends, hc', seed_idle hcomplete⟩

/-- One default permission and one default role are there, with a permission and a role of
other names; the default role lacks its links but for one. -/
def sampleDatabase : Database :=
  { empty with
    permissions := [⟨1, "reports:read", none⟩, ⟨4, "users:write", none⟩]
    roles := [⟨1, "moderator", none⟩, ⟨2, "auditor", none⟩]
    rolePermissions := [(1, 4), (2, 1)]
    nextPermissionId := 5
    nextRoleId := 3 }

theorem seed_converges_sample :
    Complete sampleDatabase.seedRbacDefaults ∧
      Extends sampleDatabase sampleDatabase.seedRbacDefaults ∧
      RbacConsistent sampleDatabase.seedRbacDefaults ∧
      sampleDatabase.seedRbacDefaults.seedRbacDefaults = sampleDatabase.seedRbacDefaults := by
  apply seed_converges
  refine ⟨?_, ?_, ?_, ?_, ?_, ?_, ?_, ?_, ?_⟩ <;> decide

end FastApiAuth.RbacSeeding
