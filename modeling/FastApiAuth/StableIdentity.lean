import FastApiAuth.OAuthGates

/-!
# A linked identity keeps meaning its user

Only unlink_provider and the deletion of the user remove a link, nothing rewrites
one, and the unique constraint keeps its identity from being linked again. So a
callback in login mode finds the same user for as long as the link is there,
whatever addresses the users have by then.
-/

namespace FastApiAuth.StableIdentity

set_option autoImplicit false

open Database OAuthGates

/-- The transition is a successful unlink of the provider by the user. -/
def Unlinks (t : ApiTransition) (userId : Nat) (provider : String) : Prop :=
  ∃ credentials user,
    t.label = (.request (.unlinkProvider provider credentials), .ok .noContent) ∧
    getCurrentUser t.source credentials = .ok user ∧ user.id = userId

/-- The transition deletes the row of the user. -/
def Removes (t : ApiTransition) (userId : Nat) : Prop :=
  (∃ u ∈ t.source.db.users, u.id = userId) ∧ ∀ u ∈ t.target.db.users, u.id ≠ userId

/-- The state belongs to a flow in login mode that has not come back yet. -/
def LoginState (s : Server) (state : String) : Prop :=
  ∃ stateValue, s.redis.get s.now (stateKeyPrefix ++ state) = some stateValue ∧
    callbackMode stateValue = .login

section Links

variable {env : Env} {s s' : Server} {l : Action × Reply} {a : OAuthAccount}

/-- The tables after an action still hold a link, or the action unlinks it, or the
rows that are left include no user of the link. -/
theorem effect_keeps_link {action : Action} {db : Database} {new : List Issued}
    (heff : Effect env s action db new) (hc : s.db.Consistent) (ha : a ∈ s.db.oauthAccounts) :
    a ∈ db.oauthAccounts ∨
      (∃ credentials user, action = .request (.unlinkProvider a.provider credentials) ∧
        getCurrentUser s credentials = .ok user ∧ user.id = a.userId ∧
        (unlinkProvider a.provider credentials s).1 = .ok .noContent) ∨
      ∀ u ∈ db.users, u.id ≠ a.userId := by
  cases heff with
  | quiet | session _ _ | resetMinted _ _ _ _ | verified _ _ _ _ _ | passwordReset _ _ _ _ _ _
  | passwordChanged _ _ _ _ | deactivated _ | statusUpdated _ _ | roleAssigned _ _ _ _
  | roleRevoked _ _ | grantedBySql _ _ => exact .inl ha
  | registered _ _ _ hins _ _ =>
    obtain ⟨_, _, rfl⟩ := insertUser_some hins
    exact .inl ha
  | signedUp _ _ hins hlink _ =>
    obtain ⟨_, _, rfl⟩ := insertUser_some hins
    obtain ⟨_, _, rfl⟩ := insertLink_some hlink
    exact .inl (List.mem_append_left _ ha)
  | autoLinked _ _ _ hlink _ | linked _ _ hlink _ =>
    obtain ⟨_, _, rfl⟩ := insertLink_some hlink
    exact .inl (List.mem_append_left _ ha)
  | emailChanged _ _ hdb =>
    obtain ⟨_, rfl⟩ := changeEmail_some hdb
    exact .inl ha
  | @unlinked provider credentials user link huser hlink hguard =>
    by_cases hid : a.id = link.id
    · obtain ⟨hmem, howner, hprovider⟩ := linkOf_some hlink
      obtain rfl : a = link := List.inj_on_of_nodup_map hc.accountIds ha hmem hid
      subst hprovider
      refine .inr (.inl ⟨credentials, user, rfl, huser, howner.symm, ?_⟩)
      rw [unlinkProvider_of_guard huser hlink hguard]
    · exact .inl (List.mem_filter.mpr ⟨ha, by simpa using hid⟩)
  | cleaned =>
    by_cases hkept : ∃ u ∈ (s.db.deleteUsers (staleAt s.now)).users, u.id = a.userId
    · obtain ⟨u, hu, hid⟩ := hkept
      refine .inl (List.mem_filter.mpr ⟨ha, List.any_eq_true.mpr ⟨u, hu, ?_⟩⟩)
      exact decide_eq_true hid
    · exact .inr (.inr fun u hu he => hkept ⟨u, hu, he⟩)

theorem step_keeps_link (hc : s.db.Consistent) (hstep : Step env s l s')
    (ha : a ∈ s.db.oauthAccounts) (hunlink : ¬ Unlinks ⟨s, l, s'⟩ a.userId a.provider)
    (hdelete : ¬ Removes ⟨s, l, s'⟩ a.userId) : a ∈ s'.db.oauthAccounts := by
  obtain ⟨action, reply⟩ := l
  obtain ⟨_, _, heff⟩ := (step_effect hstep).effect
  rcases effect_keeps_link heff hc ha with ha | ⟨credentials, user, hl, huser, hid, hreply⟩ | hgone
  · exact ha
  · have hr : reply = (step env s action).1 := (congrArg Prod.fst hstep).symm
    dsimp only at hl
    subst hl
    have hok : reply = .ok .noContent := hr.trans hreply
    exact absurd ⟨credentials, user, by rw [hok], huser, hid⟩ hunlink
  · exact absurd ⟨hc.account_user a ha, hgone⟩ hdelete

theorem run_keeps_link {h : List ApiTransition} (hc : s.db.Consistent) (r : ApiRun env s h s')
    (ha : a ∈ s.db.oauthAccounts) (hunlink : ∀ t ∈ h, ¬ Unlinks t a.userId a.provider)
    (hdelete : ∀ t ∈ h, ¬ Removes t a.userId) : a ∈ s'.db.oauthAccounts := by
  refine r.guarded_invariant (I := fun _ s => a ∈ s.db.oauthAccounts)
    (G := fun _ t => ¬ Unlinks t a.userId a.provider ∧ ¬ Removes t a.userId) ha ?_
    (Runs.guarded_of_forall_mem fun t ht => ⟨hunlink t ht, hdelete t ht⟩)
  intro h s₁ l s₂ r ha hstep hg
  exact step_keeps_link (ApiRun.consistent hc r) hstep ha hg.1 hg.2

/-- A callback that succeeds under a linked identity answers with tokens of its user. -/
theorem callback_signs_in_owner {state : String} {identity : Identity} {body : Body}
    (hc : s.db.Consistent) (ha : a ∈ s.db.oauthAccounts)
    (hidentity : identity.providerUserId = a.providerUserId) (hlogin : LoginState s state)
    (hok : (handle env (.oauthCallback a.provider state (some identity)) s).1 = .ok body) :
    ∃ u ∈ s.db.users, u.id = a.userId ∧ ∃ accessToken refreshToken,
      body = .tokenResponse accessToken refreshToken "bearer" ∧
      accessToken.sub = u.email ∧ refreshToken.sub = u.email ∧
      (handle env (.oauthCallback a.provider state (some identity)) s).2.issued =
        s.issued ++ [⟨accessToken, u.id⟩, ⟨refreshToken, u.id⟩] := by
  obtain ⟨u, hu, hid⟩ := hc.account_user a ha
  refine ⟨u, hu, hid, ?_⟩
  have hclient : requireClient env a.provider = .ok () := by
    change (oauthCallback env a.provider state (some identity) s).1 = .ok body at hok
    unfold oauthCallback at hok
    split at hok
    · cases hok
    · assumption
  obtain ⟨stateValue, hstored, hmode⟩ := hlogin
  have hlink : (consumeState state s).db.linkByIdentity a.provider identity.providerUserId =
      some a := by
    rw [hidentity]
    exact Tables.lookup_of_mem hc.identities ha rfl
  have huser : (consumeState state s).db.userById a.userId = some u := hid ▸ hc.userById_of_mem hu
  have hcallback : handle env (.oauthCallback a.provider state (some identity)) s =
      answerActive env u (consumeState state s) := by
    change oauthCallback env a.provider state (some identity) s = _
    rw [oauthCallback_login hclient hstored hmode]
    unfold callbackLogin
    simp only [hlink, huser]
  rw [hcallback] at hok ⊢
  unfold answerActive at hok ⊢
  split at hok
  · cases hok
  · rename_i hactive
    obtain ⟨accessToken, refreshToken, hreply, _, _, hi, hsub, _, hsub', _⟩ :=
      answerWithTokens_spec env u (consumeState state s)
    rw [hreply] at hok
    rw [if_neg hactive]
    cases hok
    exact ⟨accessToken, refreshToken, rfl, hsub, hsub', hi⟩

/-- A callback keeps the links there are, and gives none of their identities to another row. -/
theorem callback_moves_nothing {provider state : String} {answer : Option Identity}
    (hc : s.db.Consistent) (ha : a ∈ s.db.oauthAccounts) :
    a ∈ (handle env (.oauthCallback provider state answer) s).2.db.oauthAccounts ∧
      ∀ b ∈ (handle env (.oauthCallback provider state answer) s).2.db.oauthAccounts,
        b.identity = a.identity → b = a := by
  have hstep : Step env s (.request (.oauthCallback provider state answer),
      (handle env (.oauthCallback provider state answer) s).1)
      (handle env (.oauthCallback provider state answer) s).2 := rfl
  obtain ⟨_, _, heff⟩ := (step_effect hstep).effect
  have hkept : a ∈ (handle env (.oauthCallback provider state answer) s).2.db.oauthAccounts := by
    generalize (handle env (.oauthCallback provider state answer) s).2.db = db at heff
    cases heff with
    | quiet | session _ _ | deactivated _ => exact ha
    | signedUp _ _ hins hlink _ =>
      obtain ⟨_, _, rfl⟩ := insertUser_some hins
      obtain ⟨_, _, rfl⟩ := insertLink_some hlink
      exact List.mem_append_left _ ha
    | autoLinked _ _ _ hlink _ | linked _ _ hlink _ =>
      obtain ⟨_, _, rfl⟩ := insertLink_some hlink
      exact List.mem_append_left _ ha
  refine ⟨hkept, fun b hb he => ?_⟩
  exact List.inj_on_of_nodup_map (step_consistent hc hstep).identities hb hkept he

end Links

/-- From any state of a run in which `a` is a link: as long as its user does not unlink
the provider and is not deleted, the link is there, every callback in login mode that
succeeds under its identity answers with tokens of that user, and no callback moves a
link. -/
theorem linked_identity_stable {env : Env} {s₀ s₁ s : Server} {h₁ h : List ApiTransition}
    {a : OAuthAccount} (h₀ : Initial s₀) (r₁ : ApiRun env s₀ h₁ s₁) (ha : a ∈ s₁.db.oauthAccounts)
    (r : ApiRun env s₁ h s) (hunlink : ∀ t ∈ h, ¬ Unlinks t a.userId a.provider)
    (hdelete : ∀ t ∈ h, ¬ Removes t a.userId) :
    (∀ state identity body, identity.providerUserId = a.providerUserId → LoginState s state →
      (handle env (.oauthCallback a.provider state (some identity)) s).1 = .ok body →
      ∃ u ∈ s.db.users, u.id = a.userId ∧ ∃ accessToken refreshToken,
        body = .tokenResponse accessToken refreshToken "bearer" ∧
        accessToken.sub = u.email ∧ refreshToken.sub = u.email ∧
        (handle env (.oauthCallback a.provider state (some identity)) s).2.issued =
          s.issued ++ [⟨accessToken, u.id⟩, ⟨refreshToken, u.id⟩]) ∧
    ∀ provider state answer, ∀ b ∈ s.db.oauthAccounts,
      b ∈ (handle env (.oauthCallback provider state answer) s).2.db.oauthAccounts ∧
      ∀ b' ∈ (handle env (.oauthCallback provider state answer) s).2.db.oauthAccounts,
        b'.identity = b.identity → b' = b := by
  have hc₁ := ApiRun.consistent h₀.consistent r₁
  have hc := ApiRun.consistent hc₁ r
  have hkept := run_keeps_link hc₁ r ha hunlink hdelete
  refine ⟨fun state identity body hidentity hlogin hok => ?_,
    fun provider state answer b hb => ?_⟩
  · exact callback_signs_in_owner hc hkept hidentity hlogin hok
  · exact callback_moves_nothing hc hb

/-- Somebody signs up by OAuth, moves to another address and starts to sign in again. -/
def sampleActions : List Action :=
  [.request (.oauthLogin "github"),
    .request (.oauthCallback "github" "state0" (some ⟨"17", some "a@example.com"⟩))]

def laterActions : List Action :=
  [.request (.updateCurrentUser ⟨"a@example.com", "access", "uuid1", 0, 1800⟩
      (some "b@example.com")),
    .request (.oauthLogin "github")]

def sampleServer : Server := Runs.exec (step asciiEnv) (freshServer 0) sampleActions

def laterServer : Server := Runs.exec (step asciiEnv) sampleServer laterActions

def sampleLink : OAuthAccount := ⟨1, 1, "github", "17", some "a@example.com", 0⟩

/-- The callback of the second flow, which asserts the address of the first. -/
def sampleCallback : Request :=
  .oauthCallback "github" "state3" (some ⟨"17", some "a@example.com"⟩)

theorem linked_identity_stable_sample :
    ∃ u ∈ laterServer.db.users, u.id = 1 ∧ ∃ accessToken refreshToken,
      (handle asciiEnv sampleCallback laterServer).1 =
        .ok (.tokenResponse accessToken refreshToken "bearer") ∧
      accessToken.sub = u.email ∧ refreshToken.sub = u.email := by
  have hunlink : ∀ t ∈ Runs.trace (step asciiEnv) sampleServer laterActions,
      ¬ Unlinks t sampleLink.userId sampleLink.provider := by
    intro t ht
    simp only [Runs.trace, laterActions, List.mem_cons, List.not_mem_nil, or_false] at ht
    rcases ht with rfl | rfl <;> (rintro ⟨_, _, hl, _⟩; cases hl)
  have hdelete : ∀ t ∈ Runs.trace (step asciiEnv) sampleServer laterActions,
      ¬ Removes t sampleLink.userId := by
    intro t ht
    simp only [Runs.trace, laterActions, List.mem_cons, List.not_mem_nil, or_false] at ht
    rcases ht with rfl | rfl <;>
      exact fun hremoves => hremoves.2 ⟨1, "b@example.com", none, true, true, 0⟩
        (by decide +kernel) rfl
  have hsuccess : (handle asciiEnv sampleCallback laterServer).1.isOk = true := by decide +kernel
  cases hok : (handle asciiEnv sampleCallback laterServer).1 with
  | error e =>
    rw [hok] at hsuccess
    cases hsuccess
  | ok body =>
    obtain ⟨u, hu, hid, accessToken, refreshToken, hbody, hsub, hsub', _⟩ :=
      (linked_identity_stable (a := sampleLink) (freshServer_initial 0)
        (Runs.run_trace (step asciiEnv) (freshServer 0) sampleActions) (by decide +kernel)
        (Runs.run_trace (step asciiEnv) sampleServer laterActions) hunlink hdelete).1
        "state3" ⟨"17", some "a@example.com"⟩ body rfl
        ⟨"login", by decide +kernel, by decide +kernel⟩ hok
    exact ⟨u, hu, hid, accessToken, refreshToken, congrArg Except.ok hbody, hsub, hsub'⟩

end FastApiAuth.StableIdentity
