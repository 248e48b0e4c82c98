import FastApiAuth.OAuthGates
import FastApiAuth.Origins
import FastApiAuth.Privileges

/-!
# The default role of new accounts

Rows are inserted in two places. register_user appends the role `user` to the new row;
oauth_callback inserts the row alone. After that the two writers of user_roles in the admin
endpoints are all that moves a role, next to the rows that go with a deleted user.
-/

namespace FastApiAuth.DefaultRole

set_option autoImplicit false

open Database OAuthGates Privileges

def HasRow (db : Database) (userId : Nat) : Prop := ∃ u ∈ db.users, u.id = userId

/-- `user.roles` has the role that new users are to get. -/
def HoldsDefault (db : Database) (userId : Nat) : Prop :=
  ∃ role ∈ db.rolesOf userId, role.name = defaultUserRoleName

def Creates (t : ApiTransition) (userId : Nat) : Prop :=
  HasRow t.target.db userId ∧ ¬ HasRow t.source.db userId

/-- revoke_role is called for the user and names the default role. -/
def RevokesDefault (t : ApiTransition) (userId : Nat) : Prop :=
  ∃ credentials, t.label.1 = .request (.revokeRole credentials userId defaultUserRoleName)

/-- Every row a run creates has the default role in the state right after, and has it in
every later state, while the row stands, until revoke_role names it. -/
def DefaultRoleKept (env : Env) (h : List ApiTransition) : Prop :=
  ∀ before t after, before ++ t :: after <+: h → ∀ userId, Creates t userId →
    HoldsDefault t.target.db userId ∧
    ∀ s, ApiRun env t.target after s → HasRow s.db userId →
      (∀ x ∈ after, ¬ RevokesDefault x userId) → HoldsDefault s.db userId

/-- A callback in login mode, with a configured provider and a live state, whose identity has
no link and whose asserted address no row has. -/
def SignsUp (env : Env) (s : Server) (a : Action) : Prop :=
  ∃ provider state identity email,
    a = .request (.oauthCallback provider state (some identity)) ∧
    UnlinkedCallback env s provider state identity .login ∧
    identity.email = some email ∧ s.db.userByEmail email = none

section Steps

variable {env : Env} {s s' : Server} {a : Action} {l : Action × Reply} {userId : Nat}

/-- A row of user_roles goes with its user, or by a revoke_role that names its role. -/
theorem effect_keeps_role {db : Database} {new : List Issued} {p : Nat × Nat}
    (h : Effect env s a db new) (hp : p ∈ s.db.userRoles) (hrow : HasRow db p.1) :
    p ∈ db.userRoles ∨ ∃ credentials, ∃ role ∈ s.db.roles, role.id = p.2 ∧
      a = .request (.revokeRole credentials p.1 role.name) := by
  cases h with
  | quiet | session _ _ | resetMinted _ _ _ _ | verified _ _ _ _ _ | passwordReset _ _ _ _ _ _
  | unlinked _ _ _ | passwordChanged _ _ _ _ | deactivated _ | statusUpdated _ _ =>
    exact Or.inl hp
  | registered _ _ _ hins _ _ =>
    obtain ⟨_, _, rfl⟩ := insertUser_some hins
    exact Or.inl (List.mem_append_left _ hp)
  | signedUp _ _ hins hlink _ =>
    obtain ⟨_, _, rfl⟩ := insertUser_some hins
    obtain ⟨_, _, rfl⟩ := insertLink_some hlink
    exact Or.inl (List.mem_append_left _ hp)
  | autoLinked _ _ _ hlink _ | linked _ _ hlink _ =>
    obtain ⟨_, _, rfl⟩ := insertLink_some hlink
    exact Or.inl hp
  | emailChanged _ _ hdb =>
    obtain ⟨_, rfl⟩ := changeEmail_some hdb
    exact Or.inl hp
  | roleAssigned _ _ _ _ | grantedBySql _ _ => exact Or.inl (List.mem_append_left _ hp)
  | @roleRevoked credentials id roleName _ user _ huser =>
    obtain ⟨_, hid⟩ := userById_some huser
    by_cases hdropped : p.1 = user.id ∧ s.db.roles.any fun r => r.id = p.2 ∧ r.name = roleName
    · obtain ⟨howner, hany⟩ := hdropped
      obtain ⟨role, hrole, hmatch⟩ := List.any_eq_true.mp hany
      obtain ⟨hroleId, rfl⟩ := of_decide_eq_true hmatch
      refine Or.inr ⟨credentials, role, hrole, hroleId, ?_⟩
      rw [howner, hid]
    · exact Or.inl (List.mem_filter.mpr ⟨hp, decide_eq_true hdropped⟩)
  | cleaned =>
    obtain ⟨u, hu, hid⟩ := hrow
    refine Or.inl (List.mem_filter.mpr ⟨hp, ?_⟩)
    exact List.any_eq_true.mpr ⟨u, hu, decide_eq_true hid⟩

theorem step_roles (h : Step env s l s') : s'.db.roles = s.db.roles := by
  obtain ⟨_, _, heff⟩ := (step_effect h).effect
  exact (effect_rbac heff).1

theorem step_keeps_default (hids : (s.db.roles.map Role.id).Nodup) (h : Step env s l s')
    (hrow : HasRow s'.db userId) (hrevoke : ¬ RevokesDefault ⟨s, l, s'⟩ userId)
    (hholds : HoldsDefault s.db userId) : HoldsDefault s'.db userId := by
  obtain ⟨_, _, heff⟩ := (step_effect h).effect
  obtain ⟨role, hrole, hname⟩ := hholds
  obtain ⟨hmem, hp⟩ := mem_rolesOf.mp hrole
  rcases effect_keeps_role heff hp hrow with hp | ⟨credentials, other, hother, hid, hrequest⟩
  · refine ⟨role, mem_rolesOf.mpr ⟨?_, hp⟩, hname⟩
    rw [step_roles h]
    exact hmem
  · obtain rfl := List.inj_on_of_nodup_map hids hother hmem hid
    rw [hname] at hrequest
    exact absurd ⟨credentials, hrequest⟩ hrevoke

/-- A row whose id was given out before the step was there before it. -/
theorem hasRow_before (hc : s.db.Consistent) (h : Step env s l s') (hrow : HasRow s'.db userId)
    (hlt : userId < s.db.nextUserId) : HasRow s.db userId := by
  obtain ⟨u, hu, hid⟩ := hrow
  obtain ⟨a, reply⟩ := l
  cases step_row_origin hc h hu with
  | kept hold => exact ⟨u, hold, hid⟩
  | registered _ _ _ _ | signedUp _ _ _ => exact absurd hid hlt.ne'
  | verified hold _ _ _ _ | passwordReset hold _ _ _ | emailChanged hold _ _ _
  | passwordChanged hold _ _ _ _ | deactivated hold | statusUpdated hold _ =>
    exact ⟨_, hold, hid⟩

/-- A row comes from register_user, which appends the role, or from a callback that signs up. -/
theorem creates_cases (hc : s.db.Consistent) (h : Step env s l s')
    (hcreates : Creates ⟨s, l, s'⟩ userId) :
    SignsUp env s l.1 ∨ ∀ role, s.db.roleByName defaultUserRoleName = some role →
      (userId, role.id) ∈ s'.db.userRoles := by
  obtain ⟨new, _, heff⟩ := (step_effect h).effect
  obtain ⟨⟨u, hu, rfl⟩, habsent⟩ := hcreates
  have horigin := step_row_origin hc h hu
  obtain ⟨a, reply⟩ := l
  dsimp only at heff horigin hu habsent ⊢
  generalize s'.db = db at heff hu ⊢
  cases horigin with
  | kept hold => exact absurd ⟨u, hold, rfl⟩ habsent
  | signedUp hcall hemail hfree =>
    have hnone := Tables.lookup_eq_none_iff.mpr hfree
    exact Or.inl ⟨_, _, _, _, rfl, hcall, hemail, hnone⟩
  | registered _ _ _ _ =>
    right
    intro role hrole
    cases heff with
    | quiet | session _ _ => exact absurd ⟨_, hu, rfl⟩ habsent
    | deactivated _ =>
      obtain ⟨v, hv, hid, _⟩ := amendUser_origin (f := setActive false) (fun _ => rfl) hu
      exact absurd ⟨v, hv, hid⟩ habsent
    | registered _ _ _ hins _ _ =>
      obtain ⟨_, rfl, rfl⟩ := insertUser_some hins
      simp [hrole]
  | verified hold _ _ _ _ | passwordReset hold _ _ _ | emailChanged hold _ _ _
  | passwordChanged hold _ _ _ _ | deactivated hold | statusUpdated hold _ =>
    exact absurd ⟨_, hold, rfl⟩ habsent

/-- The row of a sign-up gets the next id and no role at all. -/
theorem signsUp_spec (h : SignsUp env s l.1) (hstep : Step env s l s') :
    HasRow s'.db s.db.nextUserId ∧ s'.db.userRoles = s.db.userRoles := by
  obtain ⟨provider, state, identity, email, hrequest, hcall, hemail, hnone⟩ := h
  obtain ⟨stateValue, hstored, hmode⟩ := hcall.stored
  have htarget : s' = (oauthCallback env provider state (some identity) s).2 := by
    have htarget := (congrArg Prod.snd hstep).symm
    rw [hrequest] at htarget
    exact htarget
  obtain ⟨user, db, hins⟩ : ∃ user db, s.db.insertUser email none true true s.now [] =
      some (user, db) := insertUser_of_free (Tables.lookup_eq_none_iff.mp hnone)
  obtain ⟨db', hlink⟩ : ∃ db', db.insertLink user.id provider identity.providerUserId
      identity.email s.now = some db' := exists_link_of_insertUser hins hcall.unlinked
  have hlogin : (callbackLogin env provider identity (consumeState state s)).2.db = db' := by
    have hins' : (consumeState state s).db.insertUser email none true true
      (consumeState state s).now [] = some (user, db) := hins
    have hfree : (consumeState state s).db.linkByIdentity provider identity.providerUserId = none :=
      hcall.unlinked
    have hnone' : (consumeState state s).db.userByEmail email = none := hnone
    have hlink' : db.insertLink user.id provider identity.providerUserId identity.email
      (consumeState state s).now = some db' := hlink
    unfold callbackLogin attachIdentity
    simp only [hfree, hemail, hnone', hins']
    rw [hemail] at hlink'
    simp only [hlink']
    exact (answerActive_spec env user _).1
  rw [htarget, oauthCallback_login hcall.client hstored hmode, hlogin]
  obtain ⟨_, huser, rfl⟩ := insertUser_some hins
  obtain ⟨_, _, rfl⟩ := insertLink_some hlink
  refine ⟨⟨user, by simp, ?_⟩, by simp⟩
  rw [huser]

theorem signsUp_without_default (hc : s.db.Consistent) (h : SignsUp env s l.1)
    (hstep : Step env s l s') :
    Creates ⟨s, l, s'⟩ s.db.nextUserId ∧ ¬ HoldsDefault s'.db s.db.nextUserId := by
  obtain ⟨hrow, hroles⟩ := signsUp_spec h hstep
  have habsent : ¬ HasRow s.db s.db.nextUserId := by
    intro hrow
    obtain ⟨u, hu, hid⟩ := hrow
    exact id_ne_nextUserId hc hu hid
  refine ⟨⟨hrow, habsent⟩, ?_⟩
  intro hholds
  obtain ⟨role, hrole, _⟩ := hholds
  obtain ⟨_, hp⟩ := mem_rolesOf.mp hrole
  rw [hroles] at hp
  exact habsent (hc.role_user _ hp)

theorem creates_default_iff (hc : s.db.Consistent)
    (hrole : ∃ role ∈ s.db.roles, role.name = defaultUserRoleName) (hstep : Step env s l s') :
    (∀ userId, Creates ⟨s, l, s'⟩ userId → HoldsDefault s'.db userId) ↔ ¬ SignsUp env s l.1 := by
  constructor
  · intro hholds hsigns
    obtain ⟨hcreates, hnone⟩ := signsUp_without_default hc hsigns hstep
    exact hnone (hholds _ hcreates)
  · intro hnone userId hcreates
    have happended := (creates_cases hc hstep hcreates).resolve_left hnone
    cases hlookup : s.db.roleByName defaultUserRoleName with
    | none =>
      obtain ⟨role, hmem, hname⟩ := hrole
      exact absurd hname (Tables.lookup_eq_none_iff.mp hlookup role hmem)
    | some role =>
      obtain ⟨hmem, hname⟩ := roleByName_some hlookup
      refine ⟨role, mem_rolesOf.mpr ⟨?_, happended role hlookup⟩, hname⟩
      rw [step_roles hstep]
      exact hmem

end Steps

section Runs

variable {env : Env} {s₀ s : Server} {h : List ApiTransition} {userId : Nat}

theorem run_roles (r : ApiRun env s₀ h s) : s.db.roles = s₀.db.roles := by
  apply r.invariant (I := fun s => s.db.roles = s₀.db.roles) rfl
  intro s l s' hroles hstep
  exact (step_roles hstep).trans hroles

theorem run_keeps_default (hc : s₀.db.Consistent) (hids : (s₀.db.roles.map Role.id).Nodup)
    (r : ApiRun env s₀ h s) (hholds : HoldsDefault s₀.db userId)
    (hlt : userId < s₀.db.nextUserId) (hrevoke : ∀ t ∈ h, ¬ RevokesDefault t userId)
    (hrow : HasRow s.db userId) : HoldsDefault s.db userId := by
  have hkept : userId < s.db.nextUserId ∧ (HasRow s.db userId → HoldsDefault s.db userId) := by
    apply r.guarded_invariant
      (I := fun _ s => userId < s.db.nextUserId ∧ (HasRow s.db userId → HoldsDefault s.db userId))
      (G := fun _ t => ¬ RevokesDefault t userId) ⟨hlt, fun _ => hholds⟩ ?_
      (Runs.guarded_of_forall_mem hrevoke)
    intro h s l s' r hinv hstep hrevoke
    obtain ⟨hlt, hholds⟩ := hinv
    refine ⟨hlt.trans_le (step_nextUserId_le hstep), ?_⟩
    intro hrow
    have hbefore := hasRow_before (ApiRun.consistent hc r) hstep hrow hlt
    have hids' : (s.db.roles.map Role.id).Nodup := by
      rw [run_roles r]
      exact hids
    exact step_keeps_default hids' hstep hrow hrevoke (hholds hbefore)
  exact hkept.2 hrow

end Runs

/-- From tables with a role `user`, a run gives and keeps every new row that role just when
no callback of it signs anybody up. -/
theorem default_role_kept_iff {env : Env} {s₀ s : Server} {h : List ApiTransition}
    (hc : s₀.db.Consistent) (hids : (s₀.db.roles.map Role.id).Nodup)
    (hrole : ∃ role ∈ s₀.db.roles, role.name = defaultUserRoleName) (r : ApiRun env s₀ h s) :
    DefaultRoleKept env h ↔ ∀ t ∈ h, ¬ SignsUp env t.source t.label.1 := by
  have hcreate : ∀ before t, before ++ [t] <+: h → t.source.db.Consistent ∧
      Step env t.source t.label t.target ∧
      ((∀ userId, Creates t userId → HoldsDefault t.target.db userId) ↔
        ¬ SignsUp env t.source t.label.1) := by
    intro before t hp
    obtain ⟨rb, hstep⟩ := r.of_prefix_snoc hp
    have hct := ApiRun.consistent hc rb
    refine ⟨hct, hstep, creates_default_iff hct ?_ hstep⟩
    rw [run_roles rb]
    exact hrole
  constructor
  · intro hkept t ht
    obtain ⟨before, hp, _⟩ := r.step_of_mem ht
    obtain ⟨_, _, hiff⟩ := hcreate before t hp
    apply hiff.mp
    intro userId hcreates
    exact (hkept before t [] hp userId hcreates).1
  · intro hnone before t after hp userId hcreates
    have hp' : before ++ [t] <+: h := by
      refine (List.prefix_append (before ++ [t]) after).trans ?_
      rw [List.append_assoc]
      exact hp
    obtain ⟨hct, hstep, hiff⟩ := hcreate before t hp'
    have hnow := hiff.mpr (hnone t (hp.subset (by simp))) userId hcreates
    refine ⟨hnow, ?_⟩
    intro s₁ r₁ hrow hrevoke
    have hct' := step_consistent hct hstep
    obtain ⟨u, hu, hid⟩ := hcreates.1
    refine run_keeps_default hct' ?_ r₁ hnow (hid ▸ hct'.userIds_lt u hu) hrevoke hrow
    rw [run_roles ((r.of_prefix_snoc hp').1.snoc hstep)]
    exact hids

/-- A first registration, and a first sign-in with a provider. -/
def newAccounts : List Action :=
  [.request (.register "localhost" ⟨"a@example.com", "Passw0rd"⟩ true),
    .request (.oauthLogin "github"),
    .request (.oauthCallback "github" "state2" (some ⟨"17", some "b@example.com"⟩))]

theorem default_role_kept_iff_sample :
    DefaultRoleKept asciiEnv (Runs.trace (step asciiEnv) (freshServer 0) newAccounts) ↔
      ∀ t ∈ Runs.trace (step asciiEnv) (freshServer 0) newAccounts,
        ¬ SignsUp asciiEnv t.source t.label.1 :=
  default_role_kept_iff (freshServer_initial 0).consistent (by decide +kernel)
    (by decide +kernel) (Runs.run_trace _ _ _)

/-- The second account is there with no role at all, and the roles are as seeded. -/
theorem sign_up_without_role :
    ∃ h s, ApiRun asciiEnv (freshServer 0) h s ∧
      (∃ role ∈ (freshServer 0).db.roles, role.name = "user") ∧
      (∃ t ∈ h, t.label.1 =
          .request (.oauthCallback "github" "state2" (some ⟨"17", some "b@example.com"⟩)) ∧
        Creates t 2 ∧ t.target.db.rolesOf 2 = []) ∧
      ¬ DefaultRoleKept asciiEnv h := by
  have hrun := Runs.run_trace (step asciiEnv) (freshServer 0) newAccounts
  have hcreates : ∀ t ∈ (Runs.trace (step asciiEnv) (freshServer 0) newAccounts)[2]?,
      Creates t 2 ∧ t.target.db.rolesOf 2 = [] := by
    intro t ht
    cases ht
    refine ⟨⟨?_, ?_⟩, by decide +kernel⟩
    · exact ⟨⟨2, "b@example.com", none, true, true, 0⟩, by decide +kernel, rfl⟩
    · change ¬ ∃ u ∈ _, _
      decide +kernel
  obtain ⟨hnew, hroles⟩ := hcreates _ rfl
  refine ⟨_, _, hrun, by decide +kernel, ⟨_, List.mem_of_getElem? (i := 2) rfl, rfl, hnew, hroles⟩,
    ?_⟩
  intro hkept
  obtain ⟨role, hrole, _⟩ := (hkept [_, _] _ [] (List.prefix_refl _) 2 hnew).1
  rw [hroles] at hrole
  cases hrole

end FastApiAuth.DefaultRole
