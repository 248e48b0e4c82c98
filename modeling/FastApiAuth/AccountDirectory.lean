import FastApiAuth.AccountAccess
import FastApiAuth.SignInMethods
import FastApiAuth.Library.Directories

/-!
# The accounts are a directory

What the tables say about the accounts is a directory: e-mail addresses, password hashes,
provider identities and role names under user ids. Each action is at most one operation on
it, and the guards of the endpoints are the preconditions of these operations.
-/

namespace FastApiAuth

set_option autoImplicit false

open Database Directories
open AccountAccess (Access)

abbrev AccountProfile := Profile String String (String × String) String

abbrev AccountOp := Op String String (String × String) String

namespace Database

def identitiesOf (db : Database) (userId : Nat) : Set (String × String) :=
  fun x => ∃ a ∈ db.oauthAccounts, a.userId = userId ∧ a.identity = x

def roleNamesOf (db : Database) (userId : Nat) : Set String :=
  fun name => ∃ r ∈ db.rolesOf userId, r.name = name

def profileOf (db : Database) (user : User) : AccountProfile :=
  { address := user.email
    secret := user.hashedPassword
    active := user.isActive
    verified := user.isVerified
    identities := db.identitiesOf user.id
    roles := db.roleNamesOf user.id }

def directory (db : Database) : Directory String String (String × String) String :=
  { profile := fun i => (db.userById i).map db.profileOf
    next := db.nextUserId }

end Database

namespace AccountDirectory

/-- The operations that an action can commit in the state `s`, each on an account that the
action has access to there. -/
inductive Performs (env : Env) (s : Server) : Action → AccountOp → Prop where
  | registers {clientHost email : String} {body : UserCreate} {broker : Bool}
      {password : NewPassword env} :
      env.emailStr body.email = some email →
      validateNewPassword env body.password = .ok password →
      Access env s (.request (.register clientHost body broker)) s.db.nextUserId →
      Performs env s (.request (.register clientHost body broker))
        (.join ⟨env.lower email, some (env.hash s.draws password.text), true, false, ∅,
          fun name => ∃ r ∈ (s.db.roleByName defaultUserRoleName).toList, r.name = name⟩)
  | signsUp {provider state email : String} {identity : Identity} :
      identity.email = some email →
      Access env s (.request (.oauthCallback provider state (some identity))) s.db.nextUserId →
      Performs env s (.request (.oauthCallback provider state (some identity)))
        (.join ⟨email, none, true, true, {(provider, identity.providerUserId)}, ∅⟩)
  | links {provider state : String} {identity : Identity} {userId : Nat} :
      Access env s (.request (.oauthCallback provider state (some identity))) userId →
      Performs env s (.request (.oauthCallback provider state (some identity)))
        (.link userId (provider, identity.providerUserId))
  | unlinks {provider : String} {credentials : Token} {user : User} {link : OAuthAccount} :
      getCurrentUser s credentials = .ok user → s.db.linkOf user.id provider = some link →
      Performs env s (.request (.unlinkProvider provider credentials))
        (.unlink user.id (provider, link.providerUserId))
  | verifies {token : Token} {userId : Nat} :
      Access env s (.request (.verifyEmail token)) userId →
      Performs env s (.request (.verifyEmail token)) (.flag userId none (some true))
  | resets {token : Token} {text : String} {password : NewPassword env} {userId : Nat} :
      validateNewPassword env text = .ok password →
      Access env s (.request (.resetPassword token text)) userId →
      Performs env s (.request (.resetPassword token text))
        (.setSecret userId (env.hash s.draws password.text))
  | changesPassword {credentials : Token} {passwordData : PasswordChange} {user : User}
      {hashedPassword : String} {password : NewPassword env} :
      getCurrentUser s credentials = .ok user → user.hashedPassword = some hashedPassword →
      verifyPassword env passwordData.currentPassword hashedPassword = some true →
      validateNewPassword env passwordData.newPassword = .ok password →
      Performs env s (.request (.changeCurrentUserPassword credentials passwordData))
        (.setSecret user.id (env.hash s.draws password.text))
  | changesEmail {credentials : Token} {text email : String} {user : User} :
      getCurrentUser s credentials = .ok user → env.emailStr text = some email →
      Performs env s (.request (.updateCurrentUser credentials (some text)))
        (.rename user.id (env.lower email))
  | deactivates {r : Request} {user : User} :
      Deactivates s user r → Performs env s (.request r) (.flag user.id (some false) none)
  | updatesStatus {credentials : Token} {userId : Nat} {payload : AdminUserUpdate} :
      Access env s (.request (.updateUserStatus credentials userId payload)) userId →
      Performs env s (.request (.updateUserStatus credentials userId payload))
        (.flag userId payload.isActive payload.isVerified)
  | assigns {credentials : Token} {userId : Nat} {roleName : String} {pushed : Bool} :
      Access env s (.request (.assignRole credentials userId roleName pushed)) userId →
      Performs env s (.request (.assignRole credentials userId roleName pushed))
        (.grant userId roleName)
  | revokes {credentials : Token} {userId : Nat} {roleName : String} :
      Access env s (.request (.revokeRole credentials userId roleName)) userId →
      Performs env s (.request (.revokeRole credentials userId roleName))
        (.revoke userId roleName)
  | grantsBySql {userId : Nat} {roleName : String} :
      Access env s (.grantBySql userId roleName) userId →
      Performs env s (.grantBySql userId roleName) (.grant userId roleName)
  | cleansUp :
      Performs env s .cleanup
        (.purge fun i => ∃ u ∈ s.db.users, u.id = i ∧ staleAt s.now u = true)

/-- What an action shows of itself in the directory: an operation it performs, or nothing. -/
def Shows (env : Env) (t : ApiTransition) (o : Option AccountOp) : Prop :=
  ∀ op, o = some op → Performs env t.source t.label.1 op

section Writes

variable {db db' : Database} {user u : User} {userId : Nat} {f : User → User}
variable {g : AccountProfile → AccountProfile} {p : AccountProfile}

theorem directory_profile_some (h : db.directory.profile userId = some p) :
    ∃ u ∈ db.users, u.id = userId ∧ p = db.profileOf u := by
  obtain ⟨u, hu, rfl⟩ := Option.map_eq_some_iff.mp h
  obtain ⟨hmem, hid⟩ := userById_some hu
  exact ⟨u, hmem, by exact_mod_cast hid, rfl⟩

theorem directory_profile_of_mem (hc : db.Consistent) (hu : u ∈ db.users) :
    db.directory.profile u.id = some (db.profileOf u) := by
  change (db.userById u.id).map db.profileOf = _
  rw [hc.userById_of_mem hu]
  rfl

theorem directory_profile_ne_none (hc : db.Consistent) (hu : u ∈ db.users) :
    db.directory.profile u.id ≠ none := by
  rw [directory_profile_of_mem hc hu]
  exact Option.some_ne_none _

theorem directory_ext {d : Directory String String (String × String) String}
    (hprofile : ∀ i, db.directory.profile i = d.profile i) (hnext : db.directory.next = d.next) :
    db.directory = d := by
  obtain ⟨profile, next⟩ := d
  simp only [directory, Directory.mk.injEq] at hprofile hnext ⊢
  exact ⟨funext hprofile, hnext⟩

/-- The view of a write to one account is the view before it, amended there. -/
theorem directory_amend (hnext : db'.nextUserId = db.nextUserId)
    (husers : ∀ i, (i : Nat) ≠ userId → db'.userById i = db.userById i)
    (hother : ∀ u ∈ db.users, u.id ≠ userId → db'.profileOf u = db.profileOf u)
    (hself : db'.directory.profile userId = (db.directory.profile userId).map g) :
    db'.directory = db.directory.amend userId g := by
  apply directory_ext
  · intro i
    by_cases hi : i = userId
    · subst hi
      rw [profile_amend_self, hself]
    · rw [profile_amend_of_ne hi]
      change (db'.userById i).map db'.profileOf = (db.userById i).map db.profileOf
      rw [husers i hi]
      cases hu : db.userById i with
      | none => rfl
      | some u =>
        obtain ⟨hmem, hid⟩ := userById_some hu
        refine congrArg some (hother u hmem ?_)
        intro he
        omega
  · exact hnext

theorem directory_amendUser (hf : ∀ u, (f u).id = u.id)
    (hg : ∀ u, db.profileOf (f u) = g (db.profileOf u)) :
    (db.amendUser userId f).directory = db.directory.amend userId g := by
  apply directory_amend
  · rfl
  · intro i hi
    apply Tables.lookup_amend_of_ne
    intro u hu
    rw [hf, hu]
    constructor <;> exact_mod_cast hi.symm
  · exact fun _ _ _ => rfl
  · change ((db.amendUser userId f).userById userId).map db.profileOf =
      ((db.userById userId).map db.profileOf).map g
    have hlookup : (db.amendUser userId f).userById userId = (db.userById userId).map f := by
      apply Tables.lookup_amend_self (fun _ => by simp) hf
    rw [hlookup, Option.map_map, Option.map_map]
    congr 1
    exact funext hg

/-- A write that leaves the users table alone. -/
theorem directory_amend_rows (husers : db'.users = db.users)
    (hnext : db'.nextUserId = db.nextUserId)
    (hother : ∀ u ∈ db.users, u.id ≠ userId → db'.profileOf u = db.profileOf u)
    (hself : ∀ u ∈ db.users, u.id = userId → db'.profileOf u = g (db.profileOf u)) :
    db'.directory = db.directory.amend userId g := by
  have hlookup : ∀ i : Int, db'.userById i = db.userById i := by
    intro i
    unfold userById
    rw [husers]
  apply directory_amend hnext
  · exact fun i _ => hlookup i
  · exact hother
  · change (db'.userById userId).map db'.profileOf = ((db.userById userId).map db.profileOf).map g
    rw [hlookup]
    cases hu : db.userById userId with
    | none => rfl
    | some u =>
      obtain ⟨hmem, hid⟩ := userById_some hu
      exact congrArg some (hself u hmem (by omega))

theorem profileOf_congr (hidentities : db'.identitiesOf u.id = db.identitiesOf u.id)
    (hroles : db'.roleNamesOf u.id = db.roleNamesOf u.id) : db'.profileOf u = db.profileOf u := by
  unfold profileOf
  rw [hidentities, hroles]

theorem identitiesOf_unused (hc : db.Consistent) (hid : db.nextUserId ≤ userId) :
    db.identitiesOf userId = ∅ := by
  apply Set.eq_empty_of_forall_notMem
  rintro x ⟨a, ha, howner, _⟩
  obtain ⟨u, hu, he⟩ := hc.account_user a ha
  have := hc.userIds_lt u hu
  omega

theorem mem_roleNamesOf {name : String} :
    name ∈ db.roleNamesOf userId ↔
      ∃ r ∈ db.roles, (userId, r.id) ∈ db.userRoles ∧ r.name = name := by
  change (∃ r ∈ db.rolesOf userId, r.name = name) ↔ _
  simp only [mem_rolesOf, and_assoc]

section Insertion

variable {email : String} {hash : Option String} {isActive isVerified : Bool}
variable {createdAt : Instant} {roles : List Role}

theorem userById_inserted (hc : db.Consistent)
    (h : db.insertUser email hash isActive isVerified createdAt roles = some (user, db')) :
    db'.userById db.nextUserId = some user := by
  have hc' := insertUser_consistent hc h
  obtain ⟨_, huser, rfl⟩ := insertUser_some h
  have hid : user.id = db.nextUserId := by rw [huser]
  rw [← hid]
  exact hc'.userById_of_mem (List.mem_append_right _ (List.mem_singleton_self user))

theorem userById_insertUser_of_ne {i : Nat} (hi : i ≠ db.nextUserId)
    (h : db.insertUser email hash isActive isVerified createdAt roles = some (user, db')) :
    db'.userById i = db.userById i := by
  obtain ⟨_, huser, rfl⟩ := insertUser_some h
  apply Tables.lookup_append_of_ne
  rw [huser]
  exact_mod_cast hi.symm

/-- The new account holds the roles it was inserted with and no other. -/
theorem roleNamesOf_inserted (hc : db.Consistent) (hids : (db.roles.map Role.id).Nodup)
    (hroles : ∀ r ∈ roles, r ∈ db.roles)
    (h : db.insertUser email hash isActive isVerified createdAt roles = some (user, db')) :
    db'.roleNamesOf user.id = fun name => ∃ r ∈ roles, r.name = name := by
  obtain ⟨_, huser, rfl⟩ := insertUser_some h
  ext name
  rw [mem_roleNamesOf]
  constructor
  · rintro ⟨r, hr, hp, hname⟩
    rcases List.mem_append.mp hp with hp | hp
    · obtain ⟨u, hu, he⟩ := hc.role_user _ hp
      have hlt := hc.userIds_lt u hu
      rw [he, huser] at hlt
      exact absurd hlt (lt_irrefl _)
    · obtain ⟨r', hr', hp⟩ := List.mem_map.mp hp
      have hsame : r' = r := List.inj_on_of_nodup_map hids (hroles r' hr') hr (Prod.mk.inj hp).2
      exact ⟨r', hr', hsame ▸ hname⟩
  · rintro ⟨r, hr, hname⟩
    refine ⟨r, hroles r hr, ?_, hname⟩
    exact List.mem_append_right _ (List.mem_map.mpr ⟨r, hr, rfl⟩)

theorem roleNamesOf_insertUser_of_ne (hne : u.id ≠ db.nextUserId)
    (h : db.insertUser email hash isActive isVerified createdAt roles = some (user, db')) :
    db'.roleNamesOf u.id = db.roleNamesOf u.id := by
  obtain ⟨_, huser, rfl⟩ := insertUser_some h
  have hold : ∀ roleId, (u.id, roleId) ∈ db.userRoles ++ roles.map (fun r => (user.id, r.id)) ↔
      (u.id, roleId) ∈ db.userRoles := by
    intro roleId
    simp only [List.mem_append, List.mem_map, Prod.mk.injEq, or_iff_left_iff_imp]
    rintro ⟨_, _, he, _⟩
    rw [huser] at he
    exact absurd he.symm hne
  ext name
  simp only [mem_roleNamesOf, hold]

theorem directory_insertUser (hc : db.Consistent) (hids : (db.roles.map Role.id).Nodup)
    (hroles : ∀ r ∈ roles, r ∈ db.roles)
    (h : db.insertUser email hash isActive isVerified createdAt roles = some (user, db')) :
    db'.directory = (Op.join ⟨email, hash, isActive, isVerified, ∅,
      fun name => ∃ r ∈ roles, r.name = name⟩).apply db.directory := by
  obtain ⟨_, huser, hdb⟩ := insertUser_some h
  apply directory_ext
  · intro i
    change (db'.userById i).map db'.profileOf =
      Function.update db.directory.profile db.nextUserId _ i
    by_cases hi : i = db.nextUserId
    · -- no link refers to the new id yet
      have hidentities : db'.identitiesOf user.id = ∅ := by
        rw [huser, hdb]
        change db.identitiesOf db.nextUserId = ∅
        exact identitiesOf_unused hc le_rfl
      rw [hi, userById_inserted hc h, Function.update_self, Option.map_some]
      unfold profileOf
      rw [hidentities, roleNamesOf_inserted hc hids hroles h, huser]
    · rw [userById_insertUser_of_ne hi h, Function.update_of_ne hi]
      change (db.userById i).map _ = (db.userById i).map _
      cases hu : db.userById i with
      | none => rfl
      | some u =>
        obtain ⟨_, hid⟩ := userById_some hu
        apply congrArg some
        apply profileOf_congr
        · rw [hdb]
          rfl
        · exact roleNamesOf_insertUser_of_ne (by omega) h
  · rw [hdb]
    rfl

end Insertion

theorem directory_insertLink {provider providerUserId : String} {email : Option String}
    {createdAt : Instant}
    (h : db.insertLink userId provider providerUserId email createdAt = some db') :
    db'.directory = (Op.link userId (provider, providerUserId)).apply db.directory := by
  obtain ⟨_, _, rfl⟩ := insertLink_some h
  have hidentities : ∀ i x, (∃ a ∈ db.oauthAccounts ++
        [⟨db.nextAccountId, userId, provider, providerUserId, email, createdAt⟩],
        a.userId = i ∧ a.identity = x) ↔
      x ∈ db.identitiesOf i ∨ (userId = i ∧ (provider, providerUserId) = x) := by
    intro i x
    simp only [List.mem_append, List.mem_singleton, or_and_right, exists_or, exists_eq_left]
    rfl
  apply directory_amend_rows
  · rfl
  · rfl
  · intro u _ hne
    apply profileOf_congr
    · ext x
      refine (hidentities u.id x).trans (or_iff_left ?_)
      rintro ⟨he, _⟩
      exact hne he.symm
    · rfl
  · rintro u _ rfl
    unfold profileOf
    congr 1
    ext x
    refine (hidentities u.id x).trans ?_
    rw [Set.mem_insert_iff, or_comm, eq_comm (a := x)]
    simp only [true_and]

theorem directory_deleteLink {provider : String} {link : OAuthAccount} (hc : db.Consistent)
    (h : db.linkOf userId provider = some link) :
    (db.deleteLink link.id).directory = (Op.unlink userId link.identity).apply db.directory := by
  obtain ⟨hmem, howner, _⟩ := linkOf_some h
  have hidentities : ∀ i x, x ∈ (db.deleteLink link.id).identitiesOf i ↔
      x ∈ db.identitiesOf i ∧ x ≠ link.identity := by
    intro i x
    constructor
    · rintro ⟨a, ha, hi, rfl⟩
      obtain ⟨ha, hne⟩ := List.mem_filter.mp ha
      refine ⟨⟨a, ha, hi, rfl⟩, ?_⟩
      intro he
      have hsame := List.inj_on_of_nodup_map hc.identities ha hmem he
      simp [hsame] at hne
    · rintro ⟨⟨a, ha, hi, rfl⟩, hne⟩
      refine ⟨a, List.mem_filter.mpr ⟨ha, ?_⟩, hi, rfl⟩
      simp only [ne_eq, decide_eq_true_eq]
      intro he
      exact hne (congrArg _ (List.inj_on_of_nodup_map hc.accountIds ha hmem he))
  apply directory_amend_rows
  · rfl
  · rfl
  · intro u _ hne
    apply profileOf_congr
    · ext x
      refine (hidentities u.id x).trans (and_iff_left_of_imp ?_)
      rintro ⟨a, ha, hi, rfl⟩ he
      have hsame := List.inj_on_of_nodup_map hc.identities ha hmem he
      exact hne (hi.symm.trans (hsame ▸ howner))
    · rfl
  · rintro u _ rfl
    unfold profileOf
    congr 1
    ext x
    exact hidentities u.id x

theorem directory_addUserRole {role : Role} (hids : (db.roles.map Role.id).Nodup)
    (hrole : role ∈ db.roles) :
    (db.addUserRole userId role.id).directory =
      (Op.grant userId role.name).apply db.directory := by
  have hroles : ∀ i name, name ∈ (db.addUserRole userId role.id).roleNamesOf i ↔
      name ∈ db.roleNamesOf i ∨ (i = userId ∧ name = role.name) := by
    intro i name
    rw [mem_roleNamesOf, mem_roleNamesOf]
    constructor
    · rintro ⟨r, hr, hp, rfl⟩
      rcases List.mem_append.mp hp with hp | hp
      · exact .inl ⟨r, hr, hp, rfl⟩
      · obtain ⟨rfl, he⟩ := Prod.mk.inj (List.mem_singleton.mp hp)
        rw [List.inj_on_of_nodup_map hids hr hrole he]
        exact .inr ⟨rfl, rfl⟩
    · rintro (⟨r, hr, hp, rfl⟩ | ⟨rfl, rfl⟩)
      · exact ⟨r, hr, List.mem_append_left _ hp, rfl⟩
      · exact ⟨role, hrole, List.mem_append_right _ (List.mem_singleton_self _), rfl⟩
  apply directory_amend_rows
  · rfl
  · rfl
  · intro u _ hne
    apply profileOf_congr
    · rfl
    · ext name
      refine (hroles u.id name).trans (or_iff_left ?_)
      rintro ⟨he, _⟩
      exact hne he
  · rintro u _ rfl
    unfold profileOf
    congr 1
    ext name
    refine (hroles u.id name).trans ?_
    rw [Set.mem_insert_iff, or_comm]
    simp only [true_and]

theorem directory_dropUserRole {roleName : String} (hids : (db.roles.map Role.id).Nodup) :
    (db.dropUserRole userId roleName).directory =
      (Op.revoke userId roleName).apply db.directory := by
  have hroles : ∀ i name, name ∈ (db.dropUserRole userId roleName).roleNamesOf i ↔
      name ∈ db.roleNamesOf i ∧ ¬ (i = userId ∧ name = roleName) := by
    intro i name
    rw [mem_roleNamesOf, mem_roleNamesOf]
    constructor
    · rintro ⟨r, hr, hp, rfl⟩
      obtain ⟨hp, hkept⟩ := List.mem_filter.mp hp
      refine ⟨⟨r, hr, hp, rfl⟩, ?_⟩
      rintro ⟨rfl, hname⟩
      simp only [decide_eq_true_eq, List.any_eq_true, not_and, true_implies] at hkept
      exact hkept ⟨r, hr, rfl, hname⟩
    · rintro ⟨⟨r, hr, hp, rfl⟩, hkept⟩
      refine ⟨r, hr, List.mem_filter.mpr ⟨hp, ?_⟩, rfl⟩
      simp only [decide_eq_true_eq, List.any_eq_true]
      rintro ⟨rfl, r', hr', he, hname⟩
      rw [List.inj_on_of_nodup_map hids hr' hr he] at hname
      exact hkept ⟨rfl, hname⟩
  apply directory_amend_rows
  · rfl
  · rfl
  · intro u _ hne
    apply profileOf_congr
    · rfl
    · ext name
      refine (hroles u.id name).trans (and_iff_left ?_)
      rintro ⟨he, _⟩
      exact hne he
  · rintro u _ rfl
    unfold profileOf
    congr 1
    ext name
    refine (hroles u.id name).trans ?_
    simp only [true_and]
    rfl

/-- Whoever stays keeps the links and roles. -/
theorem directory_deleteUsers {doomed : User → Bool} (hc : db.Consistent) :
    (db.deleteUsers doomed).directory =
      (Op.purge {i | ∃ u ∈ db.users, u.id = i ∧ doomed u = true}).apply db.directory := by
  have hc' := deleteUsers_consistent hc doomed
  have hstays : ∀ u ∈ db.users, doomed u = false →
      (db.deleteUsers doomed).users.any (fun v => v.id = u.id) = true := by
    intro u hu hkept
    exact List.any_eq_true.mpr ⟨u, mem_deleteUsers.mpr ⟨hu, hkept⟩, by simp⟩
  apply directory_ext
  · intro i
    by_cases hgone : ∃ u ∈ db.users, u.id = i ∧ doomed u = true
    · rw [profile_purge_of_mem hgone]
      obtain ⟨v, hv, hid, hdoomed⟩ := hgone
      apply Option.map_eq_none_iff.mpr
      apply Tables.lookup_eq_none_iff.mpr
      intro u hu he
      obtain ⟨hu, hkept⟩ := mem_deleteUsers.mp hu
      rw [hc.eq_of_id hu hv (by omega), hdoomed] at hkept
      cases hkept
    · rw [profile_purge_of_notMem hgone]
      change ((db.deleteUsers doomed).userById i).map _ = (db.userById i).map _
      have hlookup : (db.deleteUsers doomed).userById i = db.userById i := by
        apply Tables.lookup_filter_of_kept
        intro u hu hid
        rw [Bool.not_eq_true', ← Bool.not_eq_true]
        exact fun hdoomed => hgone ⟨u, hu, by omega, hdoomed⟩
      rw [hlookup]
      cases hu : db.userById i with
      | none => rfl
      | some u =>
        obtain ⟨hmem, hid⟩ := userById_some hu
        have hkept : doomed u = false := by
          rw [← Bool.not_eq_true]
          exact fun hdoomed => hgone ⟨u, hmem, by omega, hdoomed⟩
        apply congrArg some
        apply profileOf_congr
        · ext x
          constructor
          · rintro ⟨a, ha, howner, rfl⟩
            exact ⟨a, List.mem_of_mem_filter ha, howner, rfl⟩
          · rintro ⟨a, ha, howner, rfl⟩
            refine ⟨a, List.mem_filter.mpr ⟨ha, ?_⟩, howner, rfl⟩
            rw [howner]
            exact hstays u hmem hkept
        · ext name
          rw [mem_roleNamesOf, mem_roleNamesOf]
          constructor
          · rintro ⟨r, hr, hp, rfl⟩
            exact ⟨r, hr, List.mem_of_mem_filter hp, rfl⟩
          · rintro ⟨r, hr, hp, rfl⟩
            exact ⟨r, hr, List.mem_filter.mpr ⟨hp, hstays u hmem hkept⟩, rfl⟩
  · rfl

end Writes

section Steps

variable {env : Env} {s s' : Server} {a : Action} {db : Database} {userId : Nat}

/-- The tables `db` are what is left by nothing, or by a legal operation of the action. -/
def Moves (env : Env) (s : Server) (a : Action) (db : Database) : Prop :=
  ∃ o, Directories.Step s.db.directory o db.directory ∧
    ∀ op, o = some op → Performs env s a op

theorem Moves.stays (h : db.directory = s.db.directory) : Moves env s a db := by
  refine ⟨none, h, ?_⟩
  intro op hop
  cases hop

theorem Moves.performs {op : AccountOp} (hperforms : Performs env s a op)
    (hlegal : op.Legal s.db.directory) (happly : db.directory = op.apply s.db.directory) :
    Moves env s a db := by
  refine ⟨some op, ⟨hlegal, happly⟩, ?_⟩
  intro op' hop
  cases hop
  exact hperforms

theorem free_of_users {address : String}
    (h : ∀ u ∈ s.db.users, u.id ≠ userId → u.email ≠ address) :
    s.db.directory.Free userId address := by
  intro j q hj hq
  obtain ⟨u, hu, rfl, rfl⟩ := directory_profile_some hq
  exact h u hu hj

theorem unlinked_of_accounts {identity : String × String}
    (h : ∀ a ∈ s.db.oauthAccounts, a.identity ≠ identity) : s.db.directory.Unlinked identity := by
  intro j q hq
  obtain ⟨u, _, _, rfl⟩ := directory_profile_some hq
  rintro ⟨a, ha, _, he⟩
  exact h a ha he

/-- The sign-up of a callback inserts a row and its link. -/
theorem signUp_moves {provider state email : String} {identity : Identity} {user : User}
    {db₁ : Database} (hc : s.db.Consistent) (hids : (s.db.roles.map Role.id).Nodup)
    (hcall : UnlinkedCallback env s provider state identity .login)
    (hemail : identity.email = some email)
    (hins : s.db.insertUser email none true true s.now [] = some (user, db₁))
    (hlink : db₁.insertLink user.id provider identity.providerUserId identity.email s.now =
      some db) :
    Moves env s (.request (.oauthCallback provider state (some identity))) db := by
  have hroles : ∀ r ∈ ([] : List Role), r ∈ s.db.roles := by
    intro r hr
    cases hr
  have hjoined := directory_insertUser hc hids hroles hins
  obtain ⟨hfree, huser, hdb₁⟩ := insertUser_some hins
  have hidentity := (insertLink_some hlink).1
  rw [hdb₁] at hidentity
  have hlinked := directory_insertLink hlink
  rw [hjoined, huser] at hlinked
  apply Moves.performs (.signsUp hemail (.signedUp hcall hemail hfree))
  · refine ⟨.inr ⟨_, rfl⟩, free_of_users fun u hu _ => hfree u hu, ?_⟩
    rintro x rfl
    exact unlinked_of_accounts hidentity
  · refine hlinked.trans (link_join.trans ?_)
    simp only [insert_empty_eq, List.not_mem_nil, false_and, exists_false]
    rfl

/-- What the guard of unlink_provider leaves, in the words of the directory. -/
theorem unlink_legal {provider : String} {user : User} {link : OAuthAccount}
    (hc : s.db.Consistent) (huser : user ∈ s.db.users)
    (hlink : s.db.linkOf user.id provider = some link)
    (hguard : refusesUnlink user (s.db.linksOf user.id).length = false) :
    (Op.unlink user.id link.identity : AccountOp).Legal s.db.directory := by
  obtain ⟨hmem, howner, _⟩ := linkOf_some hlink
  refine ⟨_, directory_profile_of_mem hc huser, ⟨link, hmem, howner, rfl⟩, ?_⟩
  by_cases hpassword : user.hashedPassword = none
  · right
    have hlen : 1 < (s.db.linksOf user.id).length := by
      simpa [refusesUnlink, hpassword] using hguard
    have hn : ((s.db.linksOf user.id).map OAuthAccount.identity).Nodup :=
      Tables.nodup_filter _ hc.identities
    obtain ⟨a, ha, hne⟩ := Tables.exists_key_ne hn hlen link.identity
    obtain ⟨ha, he⟩ := List.mem_filter.mp ha
    exact ⟨a.identity, ⟨a, ha, by simpa using he, rfl⟩, hne⟩
  · exact .inl hpassword

theorem effect_moves {new : List Issued} (heff : Effect env s a db new) (hc : s.db.Consistent)
    (hids : (s.db.roles.map Role.id).Nodup) : Moves env s a db := by
  cases heff with
  | quiet | session _ _ | resetMinted _ _ _ _ => exact .stays rfl
  | registered _ hemail hpassword hins _ _ =>
    have hroles : ∀ r ∈ (s.db.roleByName defaultUserRoleName).toList,
        r ∈ s.db.roles ∧ r.name = defaultUserRoleName :=
      fun r hr => roleByName_some (Option.mem_toList.mp hr)
    obtain ⟨hfree, _, _⟩ := insertUser_some hins
    apply Moves.performs (.registers hemail hpassword (.registered hemail hfree)) _
      (directory_insertUser hc hids (fun r hr => (hroles r hr).1) hins)
    · refine ⟨.inl (Option.some_ne_none _), free_of_users fun u hu _ => hfree u hu, ?_⟩
      intro x hx
      exact absurd hx (Set.notMem_empty x)
  | verified hclaims hint hmem hver hunused =>
    apply Moves.performs (.verifies (.verifying hclaims hint hmem hver hunused))
      (directory_profile_ne_none hc hmem)
    exact directory_amendUser (fun _ => rfl) fun _ => rfl
  | passwordReset hclaims hint hpassword hmem hactive hunused =>
    apply Moves.performs (.resets hpassword (.resetting hclaims hint hmem hactive hunused))
      (directory_profile_ne_none hc hmem)
    exact directory_amendUser (fun _ => rfl) fun _ => rfl
  | signedUp hcall hemail hins hlink _ => exact signUp_moves hc hids hcall hemail hins hlink
  | autoLinked hcall hemail huser hlink _ =>
    obtain ⟨hfree, _, _⟩ := insertLink_some hlink
    obtain ⟨hmem, hmail⟩ := userByEmail_some huser
    apply Moves.performs (.links (.matched hcall hmem (by rw [hmail, hemail]))) _
      (directory_insertLink hlink)
    exact ⟨directory_profile_ne_none hc hmem, unlinked_of_accounts hfree⟩
  | linked hcall huser hlink _ =>
    obtain ⟨hfree, _, _⟩ := insertLink_some hlink
    obtain ⟨hmem, rfl⟩ := userById_some huser
    apply Moves.performs (.links (.linking hcall hmem)) _ (directory_insertLink hlink)
    exact ⟨directory_profile_ne_none hc hmem, unlinked_of_accounts hfree⟩
  | @unlinked provider _ _ link huser hlink hguard =>
    have hlegal := unlink_legal hc (getCurrentUser_mem huser) hlink hguard
    have happly := directory_deleteLink hc hlink
    have hidentity : link.identity = (provider, link.providerUserId) := by
      rw [← (linkOf_some hlink).2.2]
      rfl
    rw [hidentity] at hlegal happly
    exact .performs (.unlinks huser hlink) hlegal happly
  | emailChanged huser hemail hdb =>
    obtain ⟨hfree, rfl⟩ := changeEmail_some hdb
    apply Moves.performs (.changesEmail huser hemail)
    · exact ⟨directory_profile_ne_none hc (getCurrentUser_mem huser), free_of_users hfree⟩
    · exact directory_amendUser (fun _ => rfl) fun _ => rfl
  | passwordChanged huser hstored hcurrent hpassword =>
    apply Moves.performs (.changesPassword huser hstored hcurrent hpassword)
      (directory_profile_ne_none hc (getCurrentUser_mem huser))
    exact directory_amendUser (fun _ => rfl) fun _ => rfl
  | deactivated hby =>
    apply Moves.performs (.deactivates hby) (directory_profile_ne_none hc hby.mem)
    exact directory_amendUser (fun _ => rfl) fun _ => rfl
  | statusUpdated hadmin huser =>
    obtain ⟨hmem, rfl⟩ := userById_some huser
    apply Moves.performs (.updatesStatus (.administrator rfl hadmin hmem))
      (directory_profile_ne_none hc hmem)
    exact directory_amendUser (fun _ => rfl) fun _ => rfl
  | roleAssigned hadmin huser hrole _ =>
    obtain ⟨hmem, rfl⟩ := userById_some huser
    obtain ⟨hmem', rfl⟩ := roleByName_some hrole
    apply Moves.performs (.assigns (.administrator rfl hadmin hmem))
      (directory_profile_ne_none hc hmem)
    exact directory_addUserRole hids hmem'
  | roleRevoked hadmin huser =>
    obtain ⟨hmem, rfl⟩ := userById_some huser
    apply Moves.performs (.revokes (.administrator rfl hadmin hmem))
      (directory_profile_ne_none hc hmem)
    exact directory_dropUserRole hids
  | cleaned =>
    apply Moves.performs .cleansUp _ (directory_deleteUsers hc)
    rintro i ⟨u, hu, rfl, hstale⟩
    refine ⟨_, directory_profile_of_mem hc hu, ?_⟩
    simp only [staleAt, Bool.and_eq_true, Bool.not_eq_true'] at hstale
    exact hstale.1
  | grantedBySql huser hrole =>
    obtain ⟨hmem, hid⟩ := userById_some huser
    obtain ⟨hmem', rfl⟩ := roleByName_some hrole
    rw [Nat.cast_inj] at hid
    subst hid
    apply Moves.performs (.grantsBySql (.sql hmem)) (directory_profile_ne_none hc hmem)
    exact directory_addUserRole hids hmem'

end Steps

section Runs

variable {env : Env} {s₀ s : Server} {h : List ApiTransition} {userId : Nat}

theorem directory_sound {db : Database} (hc : db.Consistent)
    (hsign : SignInMethods.EveryoneCanSignIn db) : Sound db.directory := by
  constructor
  · intro i p hp
    obtain ⟨u, hu, rfl, _⟩ := directory_profile_some hp
    exact hc.userIds_lt u hu
  · intro i j p q hp hq he
    obtain ⟨u, hu, rfl, rfl⟩ := directory_profile_some hp
    obtain ⟨v, hv, rfl, rfl⟩ := directory_profile_some hq
    rw [hc.eq_of_email hu hv he]
  · intro i j p q x hp hq hx hy
    obtain ⟨u, _, rfl, rfl⟩ := directory_profile_some hp
    obtain ⟨v, _, rfl, rfl⟩ := directory_profile_some hq
    obtain ⟨a, ha, howner, rfl⟩ := hx
    obtain ⟨b, hb, howner', he⟩ := hy
    rw [List.inj_on_of_nodup_map hc.identities hb ha he] at howner'
    exact howner.symm.trans howner'
  · intro i p hp
    obtain ⟨u, hu, rfl, rfl⟩ := directory_profile_some hp
    rcases hsign u hu with hpassword | ⟨a, ha, howner⟩
    · exact .inl hpassword
    · exact .inr ⟨a.identity, a, ha, howner, rfl⟩

theorem run_mirrors (hc : s₀.db.Consistent) (hids : (s₀.db.roles.map Role.id).Nodup)
    (r : ApiRun env s₀ h s) :
    ∃ h', Runs.Run Directories.Step s₀.db.directory h' s.db.directory ∧
      List.Forall₂ (Runs.Mirrors (fun s => s.db.directory) (Shows env)) h h' := by
  apply r.simulates (I := fun s => s.db.Consistent ∧ (s.db.roles.map Role.id).Nodup)
    (fun s => s.db.directory) (Shows env) ⟨hc, hids⟩
  · rintro s l s' ⟨hc, hids⟩ hstep
    refine ⟨step_consistent hc hstep, ?_⟩
    rwa [DefaultRole.step_roles hstep]
  · rintro s l s' ⟨hc, hids⟩ hstep
    obtain ⟨_, _, heff⟩ := (step_effect hstep).effect
    exact effect_moves heff hc hids

theorem directory_profile_eq_none_iff {db : Database} :
    db.directory.profile userId = none ↔ ∀ u ∈ db.users, u.id ≠ userId := by
  change (db.userById userId).map db.profileOf = none ↔ _
  rw [Option.map_eq_none_iff]
  refine Tables.lookup_eq_none_iff.trans ?_
  simp only [ne_eq, Nat.cast_inj]

/-- A cleanup task deletes the row of the id, which is stale. -/
def CleansUp (userId : Nat) (t : ApiTransition) : Prop :=
  t.label.1 = .cleanup ∧ ∃ u ∈ t.source.db.users, u.id = userId ∧
    staleAt t.source.now u = true

theorem cleansUp_of_purges {t : ApiTransition}
    {t' : Runs.Transition (Directory String String (String × String) String) (Option AccountOp)}
    (hstep : Step env t.source t.label t.target)
    (hmirrors : Runs.Mirrors (fun s => s.db.directory) (Shows env) t t')
    (hpurges : Purges userId t') : CleansUp userId t := by
  obtain ⟨gone, p, hlabel, hsource, _, htarget⟩ := hpurges
  obtain ⟨he, he', hshows⟩ := hmirrors
  rw [he] at hsource
  rw [he'] at htarget
  obtain ⟨u, hu, rfl, _⟩ := directory_profile_some hsource
  have hcleanup : t.label.1 = .cleanup := by
    have hperforms := hshows _ hlabel
    generalize t.label.1 = a at hperforms ⊢
    cases hperforms
    rfl
  refine ⟨hcleanup, u, hu, rfl, ?_⟩
  by_contra hkept
  have hdb : t.target.db = t.source.db.deleteUsers (staleAt t.source.now) := by
    have hdone := congrArg (fun o => o.2.db) hstep
    rw [hcleanup] at hdone
    exact hdone.symm
  refine directory_profile_eq_none_iff.mp htarget u ?_ rfl
  rw [hdb]
  exact mem_deleteUsers.mpr ⟨hu, by simpa using hkept⟩

/-- Every run of the API is a run of the directory: each transition shows nothing, or a legal
operation that its action performs. So the laws of directories hold of the tables. -/
theorem api_refines_directory (env : Env) {s₀ s : Server} {h : List ApiTransition}
    (hc : s₀.db.Consistent) (hids : (s₀.db.roles.map Role.id).Nodup) (r : ApiRun env s₀ h s) :
    (∃ h', Runs.Run Directories.Step s₀.db.directory h' s.db.directory ∧
      List.Forall₂ (Runs.Mirrors (fun s => s.db.directory) (Shows env)) h h') ∧
    (SignInMethods.EveryoneCanSignIn s₀.db → Sound s.db.directory) := by
  obtain ⟨h', r', hmirrors⟩ := run_mirrors hc hids r
  refine ⟨⟨h', r', hmirrors⟩, ?_⟩
  intro hsign
  exact run_sound (directory_sound hc hsign) r'

/-- A registration, the visit of its mail, and a role granted by hand. -/
def joining : List Action :=
  [.request (.register "localhost" ⟨"a@example.com", "Passw0rd"⟩ true),
    .request (.verifyEmail
      { sub := "1", type := "email_verification", jti := "uuid1", iat := 0, exp := 1800 }),
    .grantBySql 1 "admin"]

theorem api_refines_directory_sample :
    (∃ h', Runs.Run Directories.Step (freshServer 0).db.directory h'
        (Runs.exec (step asciiEnv) (freshServer 0) joining).db.directory ∧
      List.Forall₂ (Runs.Mirrors (fun s => s.db.directory) (Shows asciiEnv))
        (Runs.trace (step asciiEnv) (freshServer 0) joining) h') ∧
    Sound (Runs.exec (step asciiEnv) (freshServer 0) joining).db.directory := by
  obtain ⟨hrun, hsound⟩ := api_refines_directory asciiEnv (freshServer_initial 0).consistent
    (by decide) (Runs.run_trace (step asciiEnv) (freshServer 0) joining)
  refine ⟨hrun, hsound ?_⟩
  intro u hu
  rw [freshServer_users] at hu
  cases hu

/-- A user id names one account, once: no row comes back, and a row goes only when a cleanup
task finds it unverified and more than seven days old. -/
theorem accounts_live_once (env : Env) {s₀ s : Server} {h : List ApiTransition}
    (hc : s₀.db.Consistent) (hids : (s₀.db.roles.map Role.id).Nodup) (r : ApiRun env s₀ h s)
    (userId : Nat) :
    ((∀ u ∈ s₀.db.users, u.id ≠ userId) → userId < s₀.db.nextUserId →
      ∀ u ∈ s.db.users, u.id ≠ userId) ∧
    ((∃ u ∈ s₀.db.users, u.id = userId) → (∀ u ∈ s.db.users, u.id ≠ userId) →
      ∃ t ∈ h, CleansUp userId t) := by
  obtain ⟨h', r', hmirrors⟩ := run_mirrors hc hids r
  constructor
  · intro hnone hlt
    apply directory_profile_eq_none_iff.mp
    exact (run_stays_gone hlt (directory_profile_eq_none_iff.mpr hnone) r').2
  · rintro ⟨u, hu, rfl⟩ hnone
    obtain ⟨t', ht', hpurges⟩ := run_ends_in_purge (directory_profile_ne_none hc hu)
      (directory_profile_eq_none_iff.mpr hnone) r'
    obtain ⟨t, ht, hpair⟩ := Runs.mirrored_of_mem hmirrors ht'
    obtain ⟨_, _, _, hstep⟩ := r.step_of_mem ht
    exact ⟨t, ht, cleansUp_of_purges hstep hpair hpurges⟩

/-- An account right after its registration, its mail unread. -/
def unread : Server :=
  Runs.exec (step asciiEnv) (freshServer 0)
    [.request (.register "localhost" ⟨"a@example.com", "Passw0rd"⟩ true)]

theorem accounts_live_once_sample :
    ∃ t ∈ Runs.trace (step asciiEnv) unread [.wait (8 * 24 * 60 * 60), .cleanup],
      CleansUp 1 t := by
  have hc : unread.db.Consistent :=
    ApiRun.consistent (freshServer_initial 0).consistent
      (Runs.run_trace (step asciiEnv) (freshServer 0) _)
  exact (accounts_live_once asciiEnv hc (by decide +kernel) (Runs.run_trace _ _ _) 1).2
    (by decide +kernel) (by decide +kernel)

end Runs

end AccountDirectory

end FastApiAuth
