import FastApiAuth.Provenance
import FastApiAuth.RedisIsolation
import FastApiAuth.StableIdentity
import FastApiAuth.DefaultRole

/-!
# Who can change an account

`Access env s a userId` lists what an action has to show for an account before the
code lets it write there. A run changes no account that it has no access to, and an
account that is switched off is out of reach of whoever holds its credentials.
-/

namespace FastApiAuth

set_option autoImplicit false

open Database
open Provenance (SignedByRegister SignedByForgotPassword)
open RedisIsolation (Minted)

/-- What the tables hold under one id. -/
structure Account where
  user : Option User
  links : List OAuthAccount
  roleIds : List Nat
  deriving DecidableEq

def Database.account (db : Database) (userId : Nat) : Account :=
  { user := db.userById userId
    links := db.linksOf userId
    roleIds := (db.userRoles.filter fun p => p.1 = userId).map Prod.snd }

namespace AccountAccess

/-- The requests by which the holder of an account changes it. -/
def selfService : Request → Option Token
  | .unlinkProvider _ credentials => some credentials
  | .updateCurrentUser credentials _ => some credentials
  | .changeCurrentUserPassword credentials _ => some credentials
  | .deactivateCurrentUser credentials => some credentials
  | _ => none

/-- The requests that change the account of another user, with the permission each needs. -/
def administers : Request → Option (Token × String × Int)
  | .updateUserStatus credentials userId _ => some (credentials, "users:write", userId)
  | .adminDeactivateUser credentials userId => some (credentials, "users:delete", userId)
  | .assignRole credentials userId _ _ => some (credentials, "roles:manage", userId)
  | .revokeRole credentials userId _ => some (credentials, "roles:manage", userId)
  | _ => none

inductive Access (env : Env) (s : Server) : Action → Nat → Prop where
  | registered {clientHost : String} {body : UserCreate} {broker : Bool} {email : String} :
      env.emailStr body.email = some email → (∀ v ∈ s.db.users, v.email ≠ env.lower email) →
      Access env s (.request (.register clientHost body broker)) s.db.nextUserId
  | signedUp {provider state email : String} {identity : Identity} :
      UnlinkedCallback env s provider state identity .login → identity.email = some email →
      (∀ v ∈ s.db.users, v.email ≠ email) →
      Access env s (.request (.oauthCallback provider state (some identity))) s.db.nextUserId
  | matched {provider state : String} {identity : Identity} {user : User} :
      UnlinkedCallback env s provider state identity .login → user ∈ s.db.users →
      identity.email = some user.email →
      Access env s (.request (.oauthCallback provider state (some identity))) user.id
  | linking {provider state : String} {identity : Identity} {user : User} :
      UnlinkedCallback env s provider state identity (.link user.id) → user ∈ s.db.users →
      Access env s (.request (.oauthCallback provider state (some identity))) user.id
  | verifying {token : Token} {user : User} {claims : TokenClaims Instant} :
      s.decodeEmailVerificationToken token = some claims →
      PyInt.int claims.subject = some (user.id : Int) → user ∈ s.db.users →
      user.isVerified = false → isTokenUsed s.redis s.now claims.jti = false →
      Access env s (.request (.verifyEmail token)) user.id
  | resetting {token : Token} {text : String} {user : User} {claims : TokenClaims Instant} :
      s.decodePasswordResetToken token = some claims →
      PyInt.int claims.subject = some (user.id : Int) → user ∈ s.db.users →
      user.isActive = true → isTokenUsed s.redis s.now claims.jti = false →
      Access env s (.request (.resetPassword token text)) user.id
  | holder {r : Request} {credentials : Token} {user : User} :
      selfService r = some credentials → getCurrentUser s credentials = .ok user →
      Access env s (.request r) user.id
  | administrator {r : Request} {credentials : Token} {permission : String} {admin user : User} :
      administers r = some (credentials, permission, (user.id : Int)) →
      requirePermissions s credentials [permission] = .ok admin → user ∈ s.db.users →
      Access env s (.request r) user.id
  | stale {user : User} :
      user ∈ s.db.users → staleAt s.now user = true → Access env s .cleanup user.id
  | sql {user : User} {roleName : String} :
      user ∈ s.db.users → Access env s (.grantBySql user.id roleName) user.id

/-- The token or the state that the action presents was handed out for this account. -/
def Backed (before : List ApiTransition) (s : Server) (userId : Nat) : Action → Prop
  | .request (.verifyEmail token) => SignedByRegister before userId token
  | .request (.resetPassword token _) => SignedByForgotPassword before userId token
  | .request (.oauthCallback _ state _) =>
    ∀ stateValue, s.redis.get s.now (stateKeyPrefix ++ state) = some stateValue →
      callbackMode stateValue = .link userId →
      ∃ t ∈ before, Minted t state stateValue (.link userId)
  | _ => True

/-- Every account that differs in `db` was accessed. -/
def Confined (env : Env) (s : Server) (a : Action) (db : Database) : Prop :=
  ∀ userId, ¬ Access env s a userId → db.account userId = s.db.account userId

section Frames

variable {db db' : Database} {user : User} {userId other : Nat} {f : User → User}

theorem account_eq (huser : db'.userById other = db.userById other)
    (hlinks : db'.linksOf other = db.linksOf other)
    (hroles : (db'.userRoles.filter fun p => p.1 = other) =
      db.userRoles.filter fun p => p.1 = other) :
    db'.account other = db.account other := by
  unfold Database.account
  rw [huser, hlinks, hroles]

theorem account_insertUser {email : String} {hash : Option String} {isActive isVerified : Bool}
    {createdAt : Instant} {roles : List Role}
    (h : db.insertUser email hash isActive isVerified createdAt roles = some (user, db'))
    (hne : other ≠ db.nextUserId) : db'.account other = db.account other := by
  obtain ⟨_, huser, rfl⟩ := insertUser_some h
  have hid : user.id ≠ other := by
    rw [huser]
    exact hne.symm
  apply account_eq
  · exact Tables.lookup_append_of_ne (by simpa using hid)
  · rfl
  · simp [hid]

theorem account_amendUser (hf : ∀ u, (f u).id = u.id) (hne : other ≠ userId) :
    (db.amendUser userId f).account other = db.account other := by
  apply account_eq
  · apply Tables.lookup_amend_of_ne
    intro u hu
    rw [hf, hu]
    constructor <;> simpa using hne.symm
  · rfl
  · rfl

theorem account_changeEmail {email : String} (h : db.changeEmail userId email = some db')
    (hne : other ≠ userId) : db'.account other = db.account other := by
  obtain ⟨_, rfl⟩ := changeEmail_some h
  exact account_amendUser (fun _ => rfl) hne

theorem account_insertLink {provider providerUserId : String} {email : Option String}
    {createdAt : Instant}
    (h : db.insertLink userId provider providerUserId email createdAt = some db')
    (hne : other ≠ userId) : db'.account other = db.account other := by
  obtain ⟨_, _, rfl⟩ := insertLink_some h
  apply account_eq
  · rfl
  · simp [linksOf, hne.symm]
  · rfl

theorem account_deleteLink {provider : String} {link : OAuthAccount} (hc : db.Consistent)
    (h : db.linkOf userId provider = some link) (hne : other ≠ userId) :
    (db.deleteLink link.id).account other = db.account other := by
  obtain ⟨hmem, howner, _⟩ := linkOf_some h
  apply account_eq
  · rfl
  · apply Tables.filter_filter_of_kept
    intro a ha hother
    simp only [decide_eq_true_eq] at hother ⊢
    intro hid
    apply hne
    rw [← hother, ← howner, List.inj_on_of_nodup_map hc.accountIds ha hmem hid]
  · rfl

theorem account_addUserRole {roleId : Nat} (hne : other ≠ userId) :
    (db.addUserRole userId roleId).account other = db.account other := by
  apply account_eq
  · rfl
  · rfl
  · simp [addUserRole, hne.symm]

theorem account_dropUserRole {roleName : String} (hne : other ≠ userId) :
    (db.dropUserRole userId roleName).account other = db.account other := by
  apply account_eq
  · rfl
  · rfl
  · apply Tables.filter_filter_of_kept
    intro p _ hp
    simp only [decide_eq_true_eq] at hp ⊢
    rintro ⟨hid, _⟩
    exact hne (hp.symm.trans hid)

/-- A deletion keeps the account of a row that it keeps, and of an id without a row. -/
theorem account_deleteUsers {doomed : User → Bool} (hc : db.Consistent)
    (hkept : ∀ u ∈ db.users, u.id = other → doomed u = false) :
    (db.deleteUsers doomed).account other = db.account other := by
  have hstays : ∀ u ∈ db.users, u.id = other →
      ((db.users.filter fun u => !doomed u).any fun v => v.id = other) = true := by
    intro u hu hid
    refine List.any_eq_true.mpr ⟨u, List.mem_filter.mpr ⟨hu, ?_⟩, by simpa using hid⟩
    rw [hkept u hu hid]
    rfl
  apply account_eq
  · apply Tables.lookup_filter_of_kept
    intro u hu hid
    rw [hkept u hu (by simpa using hid)]
    rfl
  · apply Tables.filter_filter_of_kept
    intro a ha hother
    obtain ⟨u, hu, hid⟩ := hc.account_user a ha
    simp only [decide_eq_true_eq] at hother
    rw [hother] at hid ⊢
    exact hstays u hu hid
  · apply Tables.filter_filter_of_kept
    intro p hp hother
    obtain ⟨u, hu, hid⟩ := hc.role_user p hp
    simp only [decide_eq_true_eq] at hother
    rw [hother] at hid ⊢
    exact hstays u hu hid

end Frames

section OneStep

variable {env : Env} {s s' : Server} {a : Action}

theorem Confined.quiet {db : Database} (h : db = s.db) : Confined env s a db := by
  intro userId _
  rw [h]

/-- A write that leaves every account but one alone is confined by the access to that one. -/
theorem Confined.write {db : Database} (userId : Nat) (haccess : Access env s a userId)
    (hframe : ∀ other, other ≠ userId → db.account other = s.db.account other) :
    Confined env s a db := by
  intro other hno
  apply hframe
  rintro rfl
  exact hno haccess

/-- The administrators' requests write to the row of the id in the path. -/
theorem Confined.administered {db : Database} {r : Request} {credentials : Token}
    {permission : String} {userId : Int} {admin user : User}
    (hr : administers r = some (credentials, permission, userId))
    (hadmin : requirePermissions s credentials [permission] = .ok admin)
    (huser : s.db.userById userId = some user)
    (hframe : ∀ other, other ≠ user.id → db.account other = s.db.account other) :
    Confined env s (.request r) db := by
  obtain ⟨hmem, rfl⟩ := userById_some huser
  exact .write _ (.administrator hr hadmin hmem) hframe

/-- Each of the writes an action can commit is to an account it has access to. -/
theorem effect_confined {db : Database} {new : List Issued} (hc : s.db.Consistent)
    (h : Effect env s a db new) : Confined env s a db := by
  cases h with
  | quiet | session _ _ | resetMinted _ _ _ _ => exact .quiet rfl
  | registered _ hemail _ hins _ _ =>
    exact .write _ (.registered hemail (insertUser_some hins).1)
      fun other hne => account_insertUser hins hne
  | verified hclaims hint hmem hver hunused =>
    exact .write _ (.verifying hclaims hint hmem hver hunused)
      fun other hne => account_amendUser (fun _ => rfl) hne
  | passwordReset hclaims hint _ hmem hactive hunused =>
    exact .write _ (.resetting hclaims hint hmem hactive hunused)
      fun other hne => account_amendUser (fun _ => rfl) hne
  | @signedUp _ _ _ _ user db₁ _ _ hcall hemail hins hlink _ =>
    obtain ⟨hfree, huser, _⟩ := insertUser_some hins
    have hid : user.id = s.db.nextUserId := by rw [huser]
    apply Confined.write _ (.signedUp hcall hemail hfree)
    intro other hne
    calc db.account other = db₁.account other := account_insertLink hlink (by rwa [hid])
      _ = s.db.account other := account_insertUser hins hne
  | autoLinked hcall hemail huser hlink _ =>
    obtain ⟨hmem, hmail⟩ := userByEmail_some huser
    exact .write _ (.matched hcall hmem (by rw [hmail, hemail]))
      fun other hne => account_insertLink hlink hne
  | linked hcall huser hlink _ =>
    obtain ⟨hmem, rfl⟩ := userById_some huser
    exact .write _ (.linking hcall hmem) fun other hne => account_insertLink hlink hne
  | unlinked huser hlink _ =>
    exact .write _ (.holder rfl huser) fun other hne => account_deleteLink hc hlink hne
  | emailChanged huser _ hdb =>
    exact .write _ (.holder rfl huser) fun other hne => account_changeEmail hdb hne
  | passwordChanged huser _ _ _ =>
    exact .write _ (.holder rfl huser) fun other hne => account_amendUser (fun _ => rfl) hne
  | deactivated hby =>
    cases hby with
    | holder huser =>
      exact .write _ (.holder rfl huser) fun other hne => account_amendUser (fun _ => rfl) hne
    | administrator hadmin huser =>
      exact .administered rfl hadmin huser fun other hne => account_amendUser (fun _ => rfl) hne
  | statusUpdated hadmin huser =>
    exact .administered rfl hadmin huser fun other hne => account_amendUser (fun _ => rfl) hne
  | roleAssigned hadmin huser _ _ =>
    exact .administered rfl hadmin huser fun other hne => account_addUserRole hne
  | roleRevoked hadmin huser =>
    exact .administered rfl hadmin huser fun other hne => account_dropUserRole hne
  | cleaned =>
    intro userId hno
    apply account_deleteUsers hc
    intro u hu hid
    rw [← Bool.not_eq_true]
    intro hstale
    exact hno (hid ▸ .stale hu hstale)
  | grantedBySql huser _ =>
    obtain ⟨hmem, hid⟩ := userById_some huser
    obtain rfl := Int.ofNat.inj hid
    exact .write _ (.sql hmem) fun other hne => account_addUserRole hne

theorem step_confined {l : Action × Reply} (hc : s.db.Consistent) (h : Step env s l s') :
    Confined env s l.1 s'.db := by
  obtain ⟨_, _, heff⟩ := (step_effect h).effect
  exact effect_confined hc heff

end OneStep

section Runs

variable {env : Env} {s₀ s s' : Server} {h : List ApiTransition}

/-- A state is kept in Redis as the call that minted it has left it. -/
theorem run_state_minted {state : String} {e : Entry String Instant}
    (h₀ : Initial s₀) (r : ApiRun env s₀ h s)
    (he : s.redis.entry (stateKeyPrefix ++ state) = some e) :
    ∃ t ∈ h, Minted t state e.value (callbackMode e.value) := by
  induction r with
  | start =>
    rw [h₀.redis] at he
    cases he
  | snoc r hstep ih =>
    rcases RedisIsolation.step_state_key hstep he with hold | hnew
    · obtain ⟨t, ht, hm⟩ := ih hold
      exact ⟨t, List.mem_append_left _ ht, hm⟩
    · exact ⟨_, List.mem_append_right _ (List.mem_singleton_self _), hnew⟩

theorem Access.backed {a : Action} {userId : Nat} (h₀ : Initial s₀) (r : ApiRun env s₀ h s)
    (haccess : Access env s a userId) : Backed h s userId a := by
  have callback : ∀ provider state answer,
      Backed h s userId (.request (.oauthCallback provider state answer)) := by
    intro provider state answer stateValue hget hmode
    obtain ⟨e, hfind, rfl⟩ := Option.map_eq_some_iff.mp hget
    obtain ⟨t, ht, hm⟩ := run_state_minted h₀ r (ExpiringStore.find_eq_some_iff.mp hfind).1
    exact ⟨t, ht, hmode ▸ hm⟩
  cases haccess with
  | registered _ _ => trivial
  | signedUp _ _ _ => exact callback _ _ _
  | matched _ _ _ => exact callback _ _ _
  | linking _ _ => exact callback _ _ _
  | verifying hclaims hint _ _ _ =>
    exact (Provenance.verification_token_signed h₀.issued r hclaims hint).2.2
  | resetting hclaims hint _ _ _ =>
    exact (Provenance.reset_token_signed h₀.issued r hclaims hint).2.2
  | @holder r credentials _ hr _ =>
    cases r with
    | verifyEmail | resetPassword | oauthCallback => cases hr
    | _ => trivial
  | @administrator r credentials _ _ _ hr _ _ =>
    cases r with
    | verifyEmail | resetPassword | oauthCallback => cases hr
    | _ => trivial
  | stale _ _ => trivial
  | sql _ => trivial

end Runs

/-- A transition that changes what the tables hold under an id had access to that
account, and the token or state it presented was handed out for it. -/
theorem accounts_change_by_access (env : Env) {s₀ s : Server} {h : List ApiTransition}
    (h₀ : Initial s₀) (r : ApiRun env s₀ h s) :
    ∀ before t, before ++ [t] <+: h → ∀ userId,
      t.target.db.account userId ≠ t.source.db.account userId →
      Access env t.source t.label.1 userId ∧ Backed before t.source userId t.label.1 := by
  intro before t hp userId hchanged
  obtain ⟨rb, hstep⟩ := r.of_prefix_snoc hp
  have hc := ApiRun.consistent h₀.consistent rb
  have haccess : Access env t.source t.label.1 userId := by
    by_contra hno
    exact hchanged (step_confined hc hstep userId hno)
  exact ⟨haccess, haccess.backed h₀ rb⟩

theorem accounts_change_by_access_sample :
    Access asciiEnv Provenance.sampleServer Provenance.sampleReset 1 ∧
      Backed Provenance.sampleHistory Provenance.sampleServer 1 Provenance.sampleReset :=
  accounts_change_by_access asciiEnv (freshServer_initial 0)
    ((Runs.run_trace (step asciiEnv) (freshServer 0) _).append
      (Runs.run_trace (step asciiEnv) Provenance.sampleServer [Provenance.sampleReset]))
    Provenance.sampleHistory ⟨Provenance.sampleServer, (Provenance.sampleReset, _), _⟩
    (List.prefix_refl _) 1 (by decide +kernel)

/-- A holder of users:write switches the account on. -/
def Revives (t : ApiTransition) (userId : Nat) : Prop :=
  ∃ credentials payload admin,
    t.label.1 = .request (.updateUserStatus credentials userId payload) ∧
    payload.isActive = some true ∧
    requirePermissions t.source credentials ["users:write"] = .ok admin

/-- As long as the row is there it is switched off, with the address, the password and
the linked accounts it had. -/
def Frozen (u : User) (links : List OAuthAccount) (db : Database) : Prop :=
  u.id < db.nextUserId ∧ ∀ v ∈ db.users, v.id = u.id →
    v.isActive = false ∧ v.email = u.email ∧ v.hashedPassword = u.hashedPassword ∧
    ∀ a ∈ links, a ∈ db.oauthAccounts

section Frozen

variable {env : Env} {s₀ s s' : Server} {u v : User} {links : List OAuthAccount}
variable {l : Action × Reply}

theorem Frozen.not_current {credentials : Token} (hf : Frozen u links s.db)
    (h : getCurrentUser s credentials = .ok v) : v.id ≠ u.id := by
  intro hid
  obtain ⟨_, _, _, _, hactive⟩ := getCurrentUser_ok h
  rw [(hf.2 v (getCurrentUser_mem h) hid).1] at hactive
  cases hactive

/-- No token of any kind opens the account to a new password. -/
theorem Frozen.no_reset {token : Token} {text : String} (hf : Frozen u links s.db) :
    ¬ Access env s (.request (.resetPassword token text)) u.id := by
  intro haccess
  generalize hid : u.id = userId at haccess
  cases haccess with
  | resetting _ _ hmem hactive _ =>
    rw [(hf.2 _ hmem hid.symm).1] at hactive
    cases hactive
  | holder hr _ => cases hr
  | administrator hr _ _ => cases hr

/-- What a row of the account can be after an action that does not switch it on. -/
theorem Frozen.row (hf : Frozen u links s.db) (hc : s.db.Consistent) (hstep : Step env s l s')
    (hrevive : ¬ Revives ⟨s, l, s'⟩ u.id) (hv : v ∈ s'.db.users) (hid : v.id = u.id) :
    v.isActive = false ∧ v.email = u.email ∧ v.hashedPassword = u.hashedPassword := by
  obtain ⟨a, reply⟩ := l
  have kept : ∀ w ∈ s.db.users, w.id = u.id →
      w.isActive = false ∧ w.email = u.email ∧ w.hashedPassword = u.hashedPassword := by
    intro w hw hwid
    obtain ⟨hoff, hemail, hhash, _⟩ := hf.2 w hw hwid
    exact ⟨hoff, hemail, hhash⟩
  have horigin := step_row_origin hc hstep hv
  cases horigin with
  | kept hw => exact kept v hw hid
  | registered _ _ _ _ => exact absurd hid hf.1.ne'
  | signedUp _ _ _ => exact absurd hid hf.1.ne'
  | @verified _ _ w hw _ _ _ _ => exact kept w hw hid
  | passwordReset _ _ _ _ =>
    -- the row is the one before, since the account was not accessed
    have hsame := step_confined hc hstep u.id hf.no_reset
    have hlookup : s'.db.userById u.id = s.db.userById u.id := congrArg Account.user hsame
    rw [← hid, (step_consistent hc hstep).userById_of_mem hv] at hlookup
    exact kept _ (userById_some hlookup.symm).1 hid
  | @emailChanged _ _ _ w _ hcurrent _ _ =>
    have hwid : w.id = u.id := hid
    exact absurd hwid (hf.not_current hcurrent)
  | @passwordChanged _ _ w _ _ _ hcurrent _ _ _ =>
    have hwid : w.id = u.id := hid
    exact absurd hwid (hf.not_current hcurrent)
  | @deactivated _ w hw => exact ⟨rfl, (kept w hw hid).2⟩
  | @statusUpdated credentials payload admin w hw hadmin =>
    obtain ⟨hoff, hrest⟩ := kept w hw hid
    refine ⟨?_, hrest⟩
    change payload.isActive.getD w.isActive = false
    cases hactive : payload.isActive with
    | none => exact hoff
    | some isActive =>
      cases isActive with
      | false => rfl
      | true =>
        have hwid : w.id = u.id := hid
        exact absurd ⟨credentials, payload, admin, by rw [hwid], hactive, hadmin⟩ hrevive

/-- The linked accounts of a row that is still there. -/
theorem Frozen.linked (hf : Frozen u links s.db) (hc : s.db.Consistent)
    (howner : ∀ a ∈ links, a.userId = u.id) (hstep : Step env s l s')
    (hv : v ∈ s'.db.users) (hid : v.id = u.id) : ∀ a ∈ links, a ∈ s'.db.oauthAccounts := by
  obtain ⟨w, hw, hwid⟩ := DefaultRole.hasRow_before hc hstep ⟨v, hv, hid⟩ hf.1
  intro a ha
  apply StableIdentity.step_keeps_link hc hstep ((hf.2 w hw hwid).2.2.2 a ha)
  · rintro ⟨_, user, _, hcurrent, huser⟩
    exact hf.not_current hcurrent (huser.trans (howner a ha))
  · rintro ⟨_, hgone⟩
    exact hgone v hv (hid.trans (howner a ha).symm)

theorem Frozen.step (hf : Frozen u links s.db) (hc : s.db.Consistent)
    (howner : ∀ a ∈ links, a.userId = u.id) (hstep : Step env s l s')
    (hrevive : ¬ Revives ⟨s, l, s'⟩ u.id) : Frozen u links s'.db := by
  refine ⟨hf.1.trans_le (step_nextUserId_le hstep), ?_⟩
  intro v hv hid
  obtain ⟨hoff, hemail, hhash⟩ := hf.row hc hstep hrevive hv hid
  exact ⟨hoff, hemail, hhash, hf.linked hc howner hstep hv hid⟩

end Frozen

/-- From the moment an account is switched off until a holder of users:write switches it
on, it stays off, keeps its address, its password and its linked accounts, and nobody is
accepted as its user. -/
theorem deactivated_accounts_are_frozen (env : Env) {s₀ s : Server} {h : List ApiTransition}
    (hc : s₀.db.Consistent) (r : ApiRun env s₀ h s) {u : User} (hu : u ∈ s₀.db.users)
    (hoff : u.isActive = false) (hrevive : ∀ t ∈ h, ¬ Revives t u.id) :
    ∀ v ∈ s.db.users, v.id = u.id →
      v.isActive = false ∧ v.email = u.email ∧ v.hashedPassword = u.hashedPassword ∧
      (∀ a ∈ s₀.db.linksOf u.id, a ∈ s.db.linksOf u.id) ∧
      ∀ credentials, getCurrentUser s credentials ≠ .ok v := by
  have howner : ∀ a ∈ s₀.db.linksOf u.id, a.userId = u.id := by
    intro a ha
    simpa using (List.mem_filter.mp ha).2
  have hfrozen : Frozen u (s₀.db.linksOf u.id) s.db := by
    refine r.guarded_invariant (I := fun _ s => Frozen u (s₀.db.linksOf u.id) s.db)
      (G := fun _ t => ¬ Revives t u.id) ?_ ?_ (Runs.guarded_of_forall_mem hrevive)
    · refine ⟨hc.userIds_lt u hu, ?_⟩
      intro v hv hid
      rw [hc.eq_of_id hv hu hid]
      exact ⟨hoff, rfl, rfl, fun a ha => (List.mem_filter.mp ha).1⟩
    · intro h s₁ l s₂ rb hf hstep hno
      exact hf.step (ApiRun.consistent hc rb) howner hstep hno
  intro v hv hid
  obtain ⟨hinactive, hemail, hhash, hlinks⟩ := hfrozen.2 v hv hid
  refine ⟨hinactive, hemail, hhash, ?_, ?_⟩
  · intro a ha
    exact List.mem_filter.mpr ⟨hlinks a ha, by simpa using howner a ha⟩
  · intro credentials hcurrent
    exact hfrozen.not_current hcurrent hid

/-- The account of a registration, switched off. -/
def switchedOff : Server :=
  let s := Runs.exec (step asciiEnv) (freshServer 0)
    [.request (.register "localhost" ⟨"a@example.com", "Passw0rd"⟩ true)]
  { s with db := s.db.amendUser 1 (setActive false) }

/-- Its mail is read, and its password is tried. -/
def visits : List Action :=
  [.request (.verifyEmail
      { sub := "1", type := "email_verification", jti := "uuid1", iat := 0, exp := 1800 }),
    .request (.login "localhost" ⟨"a@example.com", "Passw0rd"⟩)]

def visited : User := ⟨1, "a@example.com", some "Passw0rd$0", false, true, 0⟩

theorem deactivated_accounts_are_frozen_sample :
    visited.isActive = false ∧ visited.email = "a@example.com" ∧
      visited.hashedPassword = some "Passw0rd$0" ∧
      (∀ a ∈ switchedOff.db.linksOf 1,
        a ∈ (Runs.exec (step asciiEnv) switchedOff visits).db.linksOf 1) ∧
      ∀ credentials,
        getCurrentUser (Runs.exec (step asciiEnv) switchedOff visits) credentials ≠
          .ok visited := by
  have hc : switchedOff.db.Consistent := by
    apply amendUser_consistent_of_email (f := setActive false) ?_ (fun _ => rfl) (fun _ => rfl)
    exact ApiRun.consistent (freshServer_initial 0).consistent
      (Runs.run_trace (step asciiEnv) (freshServer 0) _)
  have hrevive : ∀ t ∈ Runs.trace (step asciiEnv) switchedOff visits, ¬ Revives t 1 := by
    rintro t ht ⟨credentials, payload, admin, hlabel, _⟩
    have hlabels : t.label.1 ∈ visits := by
      rw [← Runs.map_trace (step asciiEnv) switchedOff visits]
      exact List.mem_map_of_mem ht
    rw [hlabel] at hlabels
    simp [visits] at hlabels
  exact deactivated_accounts_are_frozen asciiEnv hc
    (Runs.run_trace (step asciiEnv) switchedOff visits)
    (u := ⟨1, "a@example.com", some "Passw0rd$0", false, false, 0⟩) (by decide +kernel) rfl hrevive
    visited (by decide +kernel) rfl

end AccountAccess

end FastApiAuth
