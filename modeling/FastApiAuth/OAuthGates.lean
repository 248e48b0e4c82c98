import FastApiAuth.Effects

/-!
# The gates of oauth_callback

login_user lets in only verified and active accounts. The callback tests the active
flag in login mode but not in link mode, and the verified flag nowhere. Both laws
are stated with the exact inputs on which the missing test matters.
-/

namespace FastApiAuth.OAuthGates

set_option autoImplicit false

open Database

section Callback

variable {env : Env} {s : Server} {provider state : String} {identity : Identity}

/-- The state is used up before the identity is looked at. -/
def consumeState (state : String) (s : Server) : Server :=
  { s with redis := s.redis.delete (stateKeyPrefix ++ state) }

theorem oauthCallback_login {stateValue : String} (hclient : requireClient env provider = .ok ())
    (hstored : s.redis.get s.now (stateKeyPrefix ++ state) = some stateValue)
    (hmode : callbackMode stateValue = .login) :
    oauthCallback env provider state (some identity) s =
      callbackLogin env provider identity (consumeState state s) := by
  unfold oauthCallback
  simp only [hclient, hstored, hmode]
  rfl

theorem oauthCallback_link {stateValue : String} {linkingUserId : Int}
    (hclient : requireClient env provider = .ok ())
    (hstored : s.redis.get s.now (stateKeyPrefix ++ state) = some stateValue)
    (hmode : callbackMode stateValue = .link linkingUserId) :
    oauthCallback env provider state (some identity) s =
      callbackLink env provider identity linkingUserId (consumeState state s) := by
  unfold oauthCallback
  simp only [hclient, hstored, hmode]
  rfl

/-- A callback that hands out tokens has got as far as one of the two modes. -/
theorem oauthCallback_cases (answer : Option Identity) :
    handedOut (oauthCallback env provider state answer s).1 = [] ∨
      ∃ identity stateValue, answer = some identity ∧ requireClient env provider = .ok () ∧
        s.redis.get s.now (stateKeyPrefix ++ state) = some stateValue ∧
        (callbackMode stateValue = .login ∨ ∃ i, callbackMode stateValue = .link i) := by
  unfold oauthCallback
  split
  · exact .inl rfl
  rename_i hclient
  split
  · exact .inl rfl
  rename_i stateValue hstored
  dsimp only
  split
  · exact .inl rfl
  rename_i identity
  split
  · exact .inl rfl
  · rename_i i hmode
    exact .inr ⟨identity, stateValue, rfl, hclient, hstored, .inr ⟨i, hmode⟩⟩
  · rename_i hmode
    exact .inr ⟨identity, stateValue, rfl, hclient, hstored, .inl hmode⟩

end Callback

section EmailLinks

/-- The transition is a callback in login mode that gives an identity without a link
to the row `user`, found by the e-mail address the provider asserts. -/
def AutoLinks (t : ApiTransition) (user : User) : Prop :=
  ∃ provider state identity stateValue,
    t.label.1 = .request (.oauthCallback provider state (some identity)) ∧
    t.source.redis.get t.source.now (stateKeyPrefix ++ state) = some stateValue ∧
    callbackMode stateValue = .login ∧
    t.source.db.linkByIdentity provider identity.providerUserId = none ∧
    user ∈ t.source.db.users ∧ identity.email = some user.email ∧
    ∃ a ∈ t.target.db.oauthAccounts,
      a.identity = (provider, identity.providerUserId) ∧ a.userId = user.id

/-- A callback in login mode, with a configured provider and a live state, whose
identity has no link and whose asserted address belongs to an unverified row. -/
def ClaimsUnverifiedAddress (env : Env) (s : Server) (a : Action) : Prop :=
  ∃ provider state identity user,
    a = .request (.oauthCallback provider state (some identity)) ∧
    UnlinkedCallback env s provider state identity .login ∧
    user ∈ s.db.users ∧ identity.email = some user.email ∧ user.isVerified = false

end EmailLinks

section AutoLinking

variable {env : Env} {s s' : Server} {provider state : String} {identity : Identity} {user : User}

/-- The row that holds the asserted address gets the link, whatever its flags. -/
theorem callback_links_holder (hc : s.db.Consistent)
    (hcall : UnlinkedCallback env s provider state identity .login)
    (huser : user ∈ s.db.users) (hemail : identity.email = some user.email) :
    ∃ a ∈ (oauthCallback env provider state (some identity) s).2.db.oauthAccounts,
      a.identity = (provider, identity.providerUserId) ∧ a.userId = user.id := by
  obtain ⟨stateValue, hstored, hmode⟩ := hcall.stored
  rw [oauthCallback_login hcall.client hstored hmode]
  have hfound : (consumeState state s).db.userByEmail user.email = some user :=
    hc.userByEmail_of_mem huser rfl
  have hfree : (consumeState state s).db.linkByIdentity provider identity.providerUserId = none :=
    hcall.unlinked
  obtain ⟨db, hlink⟩ : ∃ db, s.db.insertLink user.id provider identity.providerUserId
      identity.email s.now = some db :=
    insertLink_of_free (linkByIdentity_none hcall.unlinked) ⟨user, huser, rfl⟩
  have hattach : attachIdentity env provider identity user (consumeState state s) =
      answerActive env user { consumeState state s with db } := by
    unfold attachIdentity
    rw [show (consumeState state s).db.insertLink user.id provider identity.providerUserId
      identity.email (consumeState state s).now = some db from hlink]
  unfold callbackLogin
  simp only [hfree, hemail, hfound, hattach]
  obtain ⟨hdb, _⟩ := answerActive_spec env user { consumeState state s with db }
  rw [hdb]
  obtain ⟨_, _, rfl⟩ := insertLink_some hlink
  exact ⟨_, List.mem_append_right _ (List.mem_singleton_self _), rfl, rfl⟩

/-- An identity gets a link only from an action that has such a callback's effect. -/
theorem autoLinks_unlinkedCallback {l : Action × Reply}
    (hstep : Step env s l s') (h : AutoLinks ⟨s, l, s'⟩ user) :
    ∃ provider state identity,
      l.1 = .request (.oauthCallback provider state (some identity)) ∧
      UnlinkedCallback env s provider state identity .login ∧ user ∈ s.db.users ∧
      identity.email = some user.email := by
  obtain ⟨provider, state, identity, stateValue, hl, hstored, hmode, hnone, huser, hemail,
    a, ha, hidentity, howner⟩ := h
  dsimp only at *
  refine ⟨provider, state, identity, hl, ⟨?_, ⟨stateValue, hstored, hmode⟩, hnone⟩, huser, hemail⟩
  obtain ⟨_, _, heff⟩ := (step_effect hstep).effect
  rw [hl] at heff
  generalize s'.db = db at heff ha
  have absent : a ∉ s.db.oauthAccounts := fun ha => linkByIdentity_none hnone a ha hidentity
  cases heff with
  | quiet | session _ _ | deactivated _ => exact absurd ha absent
  | signedUp hcall _ _ _ _ => exact hcall.client
  | autoLinked hcall _ _ _ _ => exact hcall.client
  | linked hcall _ _ _ => exact hcall.client

end AutoLinking

/-- In a run, identities are attached by e-mail to verified rows only, if and only if
no callback ever presents the address of an unverified row. -/
theorem auto_links_verified_iff {env : Env} {s₀ s : Server} {h : List ApiTransition}
    (h₀ : Initial s₀) (r : ApiRun env s₀ h s) :
    (∀ t ∈ h, ∀ user, AutoLinks t user → user.isVerified = true) ↔
      ∀ t ∈ h, ¬ ClaimsUnverifiedAddress env t.source t.label.1 := by
  constructor
  · rintro hall t ht ⟨provider, state, identity, user, hl, hcall, huser, hemail, hunverified⟩
    obtain ⟨before, _, rb, hstep⟩ := r.step_of_mem ht
    have hc := ApiRun.consistent h₀.consistent rb
    obtain ⟨stateValue, hstored, hmode⟩ := hcall.stored
    have htarget : t.target = (oauthCallback env provider state (some identity) t.source).2 := by
      have := (congrArg Prod.snd hstep).symm
      rw [hl] at this
      exact this
    have hauto : AutoLinks t user := by
      refine ⟨provider, state, identity, stateValue, hl, hstored, hmode, hcall.unlinked, huser,
        hemail, ?_⟩
      rw [htarget]
      exact callback_links_holder hc hcall huser hemail
    rw [hall t ht user hauto] at hunverified
    cases hunverified
  · intro hnone t ht user hauto
    obtain ⟨before, _, rb, hstep⟩ := r.step_of_mem ht
    obtain ⟨provider, state, identity, hl, hcall, huser, hemail⟩ :=
      autoLinks_unlinkedCallback hstep hauto
    by_contra hunverified
    exact hnone t ht ⟨provider, state, identity, user, hl, hcall, huser, hemail,
      by simpa using hunverified⟩

/-- Somebody registers the victim's address; the victim then signs in by OAuth. -/
def hijackActions : List Action :=
  [.request (.register "localhost" ⟨"victim@example.com", "Passw0rd"⟩ true),
    .request (.oauthLogin "github"),
    .request (.oauthCallback "github" "state2" (some ⟨"17", some "victim@example.com"⟩))]

theorem auto_links_verified_iff_sample :
    (∀ t ∈ Runs.trace (step asciiEnv) (freshServer 0) hijackActions,
      ∀ user, AutoLinks t user → user.isVerified = true) ↔
    ∀ t ∈ Runs.trace (step asciiEnv) (freshServer 0) hijackActions,
      ¬ ClaimsUnverifiedAddress asciiEnv t.source t.label.1 :=
  auto_links_verified_iff (freshServer_initial 0) (Runs.run_trace _ _ _)

theorem auto_link_hijacks :
    ∃ h s, ApiRun asciiEnv (freshServer 0) h s ∧ ∃ t ∈ h, ∃ user, AutoLinks t user ∧
      user.isVerified = false ∧ user.hashedPassword ≠ none := by
  refine ⟨_, _, Runs.run_trace (step asciiEnv) (freshServer 0) hijackActions,
    _, List.mem_cons_of_mem _ (List.mem_cons_of_mem _ List.mem_cons_self),
    ⟨1, "victim@example.com", some "Passw0rd$0", true, false, 0⟩,
    ⟨"github", "state2", ⟨"17", some "victim@example.com"⟩, "login", rfl, ?_, ?_, ?_, ?_, ?_,
      ⟨1, 1, "github", "17", some "victim@example.com", 0⟩, ?_, ?_⟩, rfl, by simp⟩
  all_goals decide +kernel

section ActiveGate

/-- Every token of the answer is for a row that is active right after the request. -/
def OnlyForActive (o : Outcome) : Prop :=
  ∀ token ∈ handedOut o.1, ∃ u ∈ o.2.db.users, u.email = token.sub ∧ u.isActive = true

/-- A callback in link mode, with a configured provider and a live state, for a user
that is inactive by now and an identity that is free or its own. -/
def LinksForInactive (env : Env) (s : Server) (r : Request) : Prop :=
  ∃ provider state identity stateValue linkingUserId user,
    r = .oauthCallback provider state (some identity) ∧
    requireClient env provider = .ok () ∧
    s.redis.get s.now (stateKeyPrefix ++ state) = some stateValue ∧
    callbackMode stateValue = .link linkingUserId ∧
    s.db.userById linkingUserId = some user ∧ user.isActive = false ∧
    ∀ a, s.db.linkByIdentity provider identity.providerUserId = some a →
      (a.userId : Int) = linkingUserId

end ActiveGate

section Silent

variable {env : Env} {s : Server}

theorem onlyForActive_of_silent {o : Outcome} (h : handedOut o.1 = []) : OnlyForActive o := by
  intro token ht
  rw [h] at ht
  cases ht

/-- The requests that sign access or refresh tokens. -/
def IssuesTokens : Request → Prop
  | .login .. | .refresh .. | .oauthCallback .. => True
  | _ => False

theorem handle_silent {r : Request} (hr : ¬ IssuesTokens r) :
    handedOut (handle env r s).1 = [] := by
  have refused : ∀ e : HttpException, e.Ordinary →
      handedOut ((.error e, s) : Outcome).1 = [] := fun _ _ => rfl
  cases r with
  | login | refresh | oauthCallback => exact absurd trivial hr
  | register clientHost body broker =>
    exact register_rule (P := fun o => handedOut o.1 = []) (fun _ _ _ _ _ => rfl)
      fun email password _ _ _ _ => (registerUser_plain email password broker _).silent
  | logout credentials refreshToken =>
    exact logout_rule (P := fun o => handedOut o.1 = []) refused (fun _ _ => rfl)
      fun _ _ _ _ _ _ => rfl
  | verifyEmail token =>
    exact verifyEmail_rule (P := fun o => handedOut o.1 = []) refused rfl
      fun _ _ _ _ _ _ _ => rfl
  | forgotPassword clientHost body broker =>
    exact forgot_rule (P := fun o => handedOut o.1 = []) (fun _ _ _ _ _ => rfl)
      fun email _ _ _ => (forgotPassword_plain email broker _).silent
  | resetPassword token newPassword =>
    exact reset_rule (P := fun o => handedOut o.1 = []) refused fun password _ =>
      resetPassword_rule (P := fun o => handedOut o.1 = []) refused fun _ _ _ _ _ => rfl
  | oauthLogin provider =>
    exact oauthLogin_rule (P := fun o => handedOut o.1 = []) refused fun _ => rfl
  | oauthLink provider credentials =>
    exact oauthLink_rule (P := fun o => handedOut o.1 = []) refused fun _ _ _ => rfl
  | listLinkedAccounts | unlinkProvider | readCurrentUser | updateCurrentUser
  | changeCurrentUserPassword | deactivateCurrentUser | updateUserStatus | adminDeactivateUser
  | listRoles | assignRole | revokeRole | websocket =>
    refine (handle_plain ?_).silent
    trivial

end Silent

section Answers

variable {env : Env} {s : Server} {user : User} {provider state : String} {identity : Identity}

theorem answerWithTokens_active_iff (hc : s.db.Consistent) (hu : user ∈ s.db.users) :
    OnlyForActive (s.answerWithTokens env user) ↔ user.isActive = true := by
  obtain ⟨accessToken, refreshToken, hreply, hdb, _, _, hsub, _, hsub', _⟩ :=
    answerWithTokens_spec env user s
  unfold OnlyForActive
  rw [hreply, hdb]
  simp only [handedOut, Body.handedOut, List.mem_cons, List.not_mem_nil, or_false,
    forall_eq_or_imp, forall_eq, hsub, hsub', and_self]
  constructor
  · rintro ⟨u, hmem, he, hactive⟩
    rwa [hc.eq_of_email hu hmem he.symm]
  · exact fun hactive => ⟨user, hu, rfl, hactive⟩

theorem onlyForActive_refused (e : HttpException) (_ : e.Ordinary) :
    OnlyForActive (.error e, s) :=
  onlyForActive_of_silent rfl

theorem answerActive_onlyForActive (hc : s.db.Consistent) (hu : user ∈ s.db.users) :
    OnlyForActive (answerActive env user s) :=
  answerActive_rule (fun _ => onlyForActive_of_silent rfl) (answerWithTokens_active_iff hc hu).mpr

theorem loginUser_onlyForActive (hc : s.db.Consistent) (email : String) (password : PyStr) :
    OnlyForActive (loginUser env email password s) := by
  apply loginUser_rule onlyForActive_refused
  · exact fun _ _ _ _ _ => onlyForActive_of_silent rfl
  · intro user _ huser _ _ _ hactive
    exact (answerWithTokens_active_iff hc (userByEmail_some huser).1).mpr hactive

theorem refreshAccessToken_onlyForActive (refreshToken : Token) :
    OnlyForActive (refreshAccessToken env refreshToken s) := by
  apply refreshAccessToken_rule onlyForActive_refused
  intro user huser
  obtain ⟨_, _, _, hfound, hactive⟩ := refreshingUser_ok huser
  intro token ht
  obtain rfl := List.mem_singleton.mp ht
  exact ⟨user, (userByEmail_some hfound).1, rfl, hactive⟩

theorem callbackLogin_onlyForActive (hc : s.db.Consistent) :
    OnlyForActive (callbackLogin env provider identity s) := by
  apply callbackLogin_rule onlyForActive_refused
  · intro existing user _ huser
    exact answerActive_onlyForActive hc (userById_some huser).1
  · intro email user db _ _ huser hlink
    have hc' := insertLink_consistent hc hlink
    obtain ⟨_, _, rfl⟩ := insertLink_some hlink
    exact answerActive_onlyForActive hc' (userByEmail_some huser).1
  · intro email user db db' _ _ _ hins hlink
    have hc' := insertLink_consistent (insertUser_consistent hc hins) hlink
    obtain ⟨_, _, rfl⟩ := insertUser_some hins
    obtain ⟨_, _, rfl⟩ := insertLink_some hlink
    exact answerActive_onlyForActive hc' (by simp)

/-- Link mode answers with tokens for the linking user, active or not. -/
theorem callbackLink_onlyForActive_iff (hc : s.db.Consistent) {linkingUserId : Int} :
    OnlyForActive (callbackLink env provider identity linkingUserId s) ↔
      ¬ ∃ user, s.db.userById linkingUserId = some user ∧ user.isActive = false ∧
        ∀ a, s.db.linkByIdentity provider identity.providerUserId = some a →
          (a.userId : Int) = linkingUserId := by
  unfold callbackLink
  split
  · rename_i existing hexisting
    split
    · rename_i hother
      refine iff_of_true (onlyForActive_of_silent rfl) ?_
      rintro ⟨_, _, _, hown⟩
      exact hother (hown existing hexisting)
    · rename_i hown
      split
      · rename_i hnone
        exact iff_of_true (onlyForActive_of_silent rfl) (by simp [hnone])
      · rename_i user huser
        rw [answerWithTokens_active_iff hc (userById_some huser).1]
        constructor
        · rintro hactive ⟨u, hu, hinactive, _⟩
          cases huser.symm.trans hu
          exact absurd hactive (by simp [hinactive])
        · intro hnone
          by_contra hinactive
          refine hnone ⟨user, huser, by simpa using hinactive, fun a ha => ?_⟩
          cases hexisting.symm.trans ha
          exact not_not.mp hown
  · rename_i hfree
    split
    · rename_i hnone
      exact iff_of_true (onlyForActive_of_silent rfl) (by simp [hnone])
    · rename_i user huser
      have hmem := (userById_some huser).1
      obtain ⟨db, hlink⟩ : ∃ db, s.db.insertLink user.id provider identity.providerUserId
          identity.email s.now = some db :=
        insertLink_of_free (linkByIdentity_none hfree) ⟨user, hmem, rfl⟩
      have hc' := insertLink_consistent hc hlink
      have hmem' : user ∈ db.users := by
        obtain ⟨_, _, rfl⟩ := insertLink_some hlink
        exact hmem
      simp only [hlink]
      rw [answerWithTokens_active_iff hc' hmem']
      simp [huser, hfree]

end Answers

theorem handle_onlyForActive_iff {env : Env} {s : Server} {r : Request} (hc : s.db.Consistent) :
    OnlyForActive (handle env r s) ↔ ¬ LinksForInactive env s r := by
  cases r with
  | login clientHost body =>
    refine iff_of_true ?_ (by rintro ⟨_, _, _, _, _, _, hr, _⟩; cases hr)
    exact login_rule (fun _ _ _ _ _ => onlyForActive_of_silent rfl) fun email redis _ _ =>
      loginUser_onlyForActive (s := { s with redis }) hc email body.password
  | refresh refreshToken =>
    refine iff_of_true (refreshAccessToken_onlyForActive _) ?_
    rintro ⟨_, _, _, _, _, _, hr, _⟩
    cases hr
  | oauthCallback provider state answer =>
    change OnlyForActive (oauthCallback env provider state answer s) ↔ _
    rcases oauthCallback_cases answer with hsilent |
      ⟨identity, stateValue, rfl, hclient, hstored, hmode | ⟨linkingUserId, hmode⟩⟩
    · refine iff_of_true (onlyForActive_of_silent hsilent) ?_
      rintro ⟨_, _, _, _, _, user, hr, hclient, hstored, hmode, huser, hinactive, hown⟩
      cases hr
      have hactive := onlyForActive_of_silent hsilent
      rw [oauthCallback_link hclient hstored hmode] at hactive
      exact (callbackLink_onlyForActive_iff (s := consumeState state s) hc).mp hactive
        ⟨user, huser, hinactive, hown⟩
    · rw [oauthCallback_login hclient hstored hmode]
      refine iff_of_true (callbackLogin_onlyForActive hc) ?_
      rintro ⟨_, _, _, _, _, _, hr, _, hstored', hmode', _⟩
      cases hr
      cases hstored.symm.trans hstored'
      cases hmode.symm.trans hmode'
    · rw [oauthCallback_link hclient hstored hmode,
        callbackLink_onlyForActive_iff (s := consumeState state s) hc]
      refine not_congr ⟨?_, ?_⟩
      · rintro ⟨user, huser, hinactive, hown⟩
        exact ⟨_, _, _, _, _, user, rfl, hclient, hstored, hmode, huser, hinactive, hown⟩
      · rintro ⟨_, _, _, _, _, user, hr, _, hstored', hmode', huser, hinactive, hown⟩
        cases hr
        cases hstored.symm.trans hstored'
        cases hmode.symm.trans hmode'
        exact ⟨user, huser, hinactive, hown⟩
  | _ =>
    refine iff_of_true (onlyForActive_of_silent (handle_silent id)) ?_
    rintro ⟨_, _, _, _, _, _, hr, _⟩
    cases hr

/-- In every reachable state, a request hands out tokens for active users only, unless
it is a link-mode callback for a user deactivated since the flow began. -/
theorem tokens_only_for_active_iff {env : Env} {s₀ s : Server} {h : List ApiTransition}
    (h₀ : Initial s₀) (r : ApiRun env s₀ h s) (q : Request) :
    (∀ token ∈ handedOut (handle env q s).1,
      ∃ u ∈ (handle env q s).2.db.users, u.email = token.sub ∧ u.isActive = true) ↔
    ¬ LinksForInactive env s q :=
  handle_onlyForActive_iff (ApiRun.consistent h₀.consistent r)

def accessToken : Token := ⟨"a@example.com", "access", "uuid2", 0, 1800⟩

/-- A logged-in user starts a link flow and deactivates the account before the callback. -/
def deactivatedServer : Server :=
  Runs.exec (step asciiEnv) (freshServer 0)
    [.request (.register "localhost" ⟨"a@example.com", "Passw0rd"⟩ true),
      .request (.verifyEmail ⟨"1", "email_verification", "uuid1", 0, 1800⟩),
      .request (.login "localhost" ⟨"a@example.com", "Passw0rd"⟩),
      .request (.oauthLink "github" accessToken),
      .request (.deactivateCurrentUser accessToken)]

def linkCallback : Request :=
  .oauthCallback "github" "state4" (some ⟨"17", some "a@example.com"⟩)

theorem tokens_only_for_active_iff_sample :
    (∀ token ∈ handedOut (handle asciiEnv linkCallback deactivatedServer).1,
      ∃ u ∈ (handle asciiEnv linkCallback deactivatedServer).2.db.users,
        u.email = token.sub ∧ u.isActive = true) ↔
    ¬ LinksForInactive asciiEnv deactivatedServer linkCallback :=
  tokens_only_for_active_iff (freshServer_initial 0) (Runs.run_trace _ _ _) _

theorem link_mode_answers_inactive :
    ∃ h s, ApiRun asciiEnv (freshServer 0) h s ∧
      ∃ token ∈ handedOut (handle asciiEnv linkCallback s).1,
      ∃ u ∈ (handle asciiEnv linkCallback s).2.db.users,
        u.email = token.sub ∧ u.isActive = false := by
  refine ⟨_, deactivatedServer, Runs.run_trace _ _ _,
    ⟨"a@example.com", "access", "uuid5", 0, 1800⟩, ?_,
    ⟨1, "a@example.com", some "Passw0rd$0", false, true, 0⟩, ?_, rfl, rfl⟩
  · decide +kernel
  · decide +kernel

end FastApiAuth.OAuthGates
