import FastApiAuth.TokenBinding

/-!
# Whom a request signs in

Three endpoints sign access and refresh tokens: login_user, refresh_access_token and
the four branches of oauth_callback that succeed. `SignsIn` lists them with the row
they sign in; every session token of a run goes back to one of them.
-/

namespace FastApiAuth

set_option autoImplicit false

open Database TokenBinding

/-- A request in the state `s` that gets as far as signing tokens for `user`. -/
inductive SignsIn (env : Env) (s : Server) : Request → User → Prop where
  | login {clientHost email : String} {body : LoginRequest} {user : User} :
      env.emailStr body.email = some email → s.db.userByEmail (env.lower email) = some user →
      user.isVerified = true → user.isActive = true →
      SignsIn env s (.login clientHost body) user
  | refreshed {refreshToken : Token} {user : User} :
      refreshingUser s refreshToken = .ok user → SignsIn env s (.refresh refreshToken) user
  | linkMode {provider state stateValue : String} {identity : Identity} {linkingUserId : Int}
      {user : User} :
      requireClient env provider = .ok () →
      s.redis.get s.now (stateKeyPrefix ++ state) = some stateValue →
      callbackMode stateValue = .link linkingUserId →
      (∀ a, s.db.linkByIdentity provider identity.providerUserId = some a →
        (a.userId : Int) = linkingUserId) →
      s.db.userById linkingUserId = some user →
      SignsIn env s (.oauthCallback provider state (some identity)) user
  | linked {provider state stateValue : String} {identity : Identity} {a : OAuthAccount}
      {user : User} :
      requireClient env provider = .ok () →
      s.redis.get s.now (stateKeyPrefix ++ state) = some stateValue →
      callbackMode stateValue = .login →
      s.db.linkByIdentity provider identity.providerUserId = some a →
      s.db.userById a.userId = some user → user.isActive = true →
      SignsIn env s (.oauthCallback provider state (some identity)) user
  | byEmail {provider state email : String} {identity : Identity} {user : User} :
      UnlinkedCallback env s provider state identity .login → identity.email = some email →
      s.db.userByEmail email = some user → user.isActive = true →
      SignsIn env s (.oauthCallback provider state (some identity)) user
  | signedUp {provider state email : String} {identity : Identity} :
      UnlinkedCallback env s provider state identity .login → identity.email = some email →
      (∀ v ∈ s.db.users, v.email ≠ email) →
      SignsIn env s (.oauthCallback provider state (some identity))
        ⟨s.db.nextUserId, email, none, true, true, s.now⟩

theorem SignsIn.mem_or_new {env : Env} {s : Server} {r : Request} {user : User}
    (h : SignsIn env s r user) :
    user ∈ s.db.users ∨ (user.id = s.db.nextUserId ∧
      ∃ provider state identity, r = .oauthCallback provider state (some identity)) := by
  cases h with
  | login _ huser _ _ => exact .inl (userByEmail_some huser).1
  | refreshed huser =>
    obtain ⟨_, _, _, huser, _⟩ := refreshingUser_ok huser
    exact .inl (userByEmail_some huser).1
  | linkMode _ _ _ _ huser => exact .inl (userById_some huser).1
  | linked _ _ _ _ huser _ => exact .inl (userById_some huser).1
  | byEmail _ _ huser _ => exact .inl (userByEmail_some huser).1
  | signedUp _ _ _ => exact .inr ⟨rfl, _, _, _, rfl⟩

/-- The session tokens signed by the time of `s'` are those of `s` and some for rows
that the request signs in. -/
def SignsFor (env : Env) (s : Server) (r : Request) (s' : Server) : Prop :=
  ∃ new, s'.issued = s.issued ++ new ∧ ∀ i ∈ new, IsSession i →
    ∃ user, SignsIn env s r user ∧ i.owner = user.id ∧ i.token.sub = user.email

section Handlers

variable {env : Env} {s s' : Server} {r : Request} {user : User} {provider state : String}

theorem SignsFor.none (h : s'.issued = s.issued) : SignsFor env s r s' :=
  ⟨[], by rw [h, List.append_nil], by simp⟩

theorem SignsFor.other {i : Issued} (h : s'.issued = s.issued ++ [i]) (hi : ¬ IsSession i) :
    SignsFor env s r s' := by
  refine ⟨[i], h, fun j hj hsession => absurd hsession ?_⟩
  rwa [List.mem_singleton.mp hj]

theorem SignsFor.pair {s₁ : Server} (hs : s₁.issued = s.issued) (h : SignsIn env s r user) :
    SignsFor env s r (s₁.answerWithTokens env user).2 := by
  obtain ⟨_, _, new, hi, hnew⟩ := answerWithTokens_session env user s₁
  refine ⟨new, hs ▸ hi, fun i hmem _ => ?_⟩
  obtain ⟨howner, hsub, _⟩ := hnew i hmem
  exact ⟨user, h, howner, hsub⟩

theorem SignsFor.active {s₁ : Server} (hs : s₁.issued = s.issued)
    (h : user.isActive = true → SignsIn env s r user) :
    SignsFor env s r (answerActive env user s₁).2 :=
  answerActive_rule (P := fun o => SignsFor env s r o.2) (fun _ => .none hs)
    fun hactive => .pair hs (h hactive)

theorem signsFor_refused (e : HttpException) (_ : e.Ordinary) :
    SignsFor env s r ((.error e, s) : Outcome).2 :=
  .none rfl

/-- The tokens of the mails open no session. -/
theorem verificationToken_other (user : User) :
    ¬ IsSession ⟨verificationToken env s user, user.id⟩ := by
  simp [IsSession, verificationToken, createToken]

theorem resetToken_other (user : User) : ¬ IsSession ⟨resetToken env s user, user.id⟩ := by
  simp [IsSession, resetToken, createToken]

theorem registerUser_signs (email : String) (password : NewPassword env) (broker : Bool)
    {redis : Redis Instant} :
    SignsFor env s r (registerUser env email password broker { s with redis }).2 := by
  apply registerUser_rule (P := fun o => SignsFor env s r o.2)
  · exact fun _ _ => .none rfl
  · intro user db _ _
    exact ⟨fun _ => .other rfl (verificationToken_other user),
      fun _ => .other rfl (verificationToken_other user)⟩

theorem forgotPassword_signs (email : String) (broker : Bool) {redis : Redis Instant} :
    SignsFor env s r (forgotPassword env email broker { s with redis }).2 := by
  apply forgotPassword_rule (P := fun o => SignsFor env s r o.2)
  · exact .none rfl
  · intro user _ _
    exact ⟨fun _ => .other rfl (resetToken_other user),
      fun _ => .other rfl (resetToken_other user)⟩

theorem callbackLink_signs {redis : Redis Instant} {stateValue : String} {identity : Identity}
    {linkingUserId : Int} (hclient : requireClient env provider = .ok ())
    (hstored : s.redis.get s.now (stateKeyPrefix ++ state) = some stateValue)
    (hmode : callbackMode stateValue = .link linkingUserId) :
    SignsFor env s (.oauthCallback provider state (some identity))
      (callbackLink env provider identity linkingUserId { s with redis }).2 := by
  apply callbackLink_rule (P := fun o => SignsFor env s _ o.2)
  · exact fun _ _ => .none rfl
  · intro existing user hexisting hown huser
    refine .pair rfl (.linkMode hclient hstored hmode (fun a ha => ?_) huser)
    cases hexisting.symm.trans ha
    exact hown
  · intro user db hnone huser _
    refine .pair rfl (.linkMode hclient hstored hmode (fun a ha => ?_) huser)
    cases hnone.symm.trans ha

theorem callbackLogin_signs {redis : Redis Instant} {stateValue : String} {identity : Identity}
    (hclient : requireClient env provider = .ok ())
    (hstored : s.redis.get s.now (stateKeyPrefix ++ state) = some stateValue)
    (hmode : callbackMode stateValue = .login) :
    SignsFor env s (.oauthCallback provider state (some identity))
      (callbackLogin env provider identity { s with redis }).2 := by
  have hcall : s.db.linkByIdentity provider identity.providerUserId = none →
      UnlinkedCallback env s provider state identity .login :=
    fun hnone => ⟨hclient, ⟨stateValue, hstored, hmode⟩, hnone⟩
  apply callbackLogin_rule (P := fun o => SignsFor env s _ o.2)
  · exact fun _ _ => .none rfl
  · intro existing user hexisting huser
    exact .active rfl (.linked hclient hstored hmode hexisting huser)
  · intro email user db hnone hemail huser _
    exact .active rfl (.byEmail (hcall hnone) hemail huser)
  · intro email user db db' hnone hemail _ hins _
    obtain ⟨hfree, rfl, rfl⟩ := insertUser_some hins
    exact .active rfl fun _ => .signedUp (hcall hnone) hemail hfree

theorem oauthCallback_signs {answer : Option Identity} :
    SignsFor env s (.oauthCallback provider state answer)
      (oauthCallback env provider state answer s).2 := by
  apply oauthCallback_rule (P := fun o => SignsFor env s _ o.2) signsFor_refused
  · exact fun _ _ _ _ => .none rfl
  · rintro stateValue identity linkingUserId hclient hstored rfl hmode
    exact callbackLink_signs hclient hstored hmode
  · rintro stateValue identity hclient hstored rfl hmode
    exact callbackLogin_signs hclient hstored hmode

theorem loginUser_signs {clientHost email : String} {password : PyStr} {body : LoginRequest}
    {redis : Redis Instant} (hemail : env.emailStr body.email = some email) :
    SignsFor env s (.login clientHost body) (loginUser env email password { s with redis }).2 := by
  apply loginUser_rule (P := fun o => SignsFor env s _ o.2)
  · exact fun _ _ => .none rfl
  · exact fun _ _ _ _ _ => .none rfl
  · intro user _ huser _ _ hverified hactive
    exact .pair rfl (.login hemail huser hverified hactive)

theorem refreshAccessToken_signs {refreshToken : Token} :
    SignsFor env s (.refresh refreshToken) (refreshAccessToken env refreshToken s).2 := by
  apply refreshAccessToken_rule (P := fun o => SignsFor env s _ o.2) signsFor_refused
  intro user huser
  refine ⟨_, rfl, fun i hi _ => ?_⟩
  rw [List.mem_singleton.mp hi]
  exact ⟨user, .refreshed huser, rfl, rfl⟩

theorem handle_signs (r : Request) : SignsFor env s r (handle env r s).2 := by
  cases r with
  | register clientHost body broker =>
    apply register_rule (P := fun o => SignsFor env s _ o.2)
    · exact fun _ _ _ _ _ => .none rfl
    · exact fun email password _ _ _ _ => registerUser_signs email password broker
  | login clientHost body =>
    apply login_rule (P := fun o => SignsFor env s _ o.2)
    · exact fun _ _ _ _ _ => .none rfl
    · exact fun email _ _ hemail => loginUser_signs hemail
  | refresh refreshToken => exact refreshAccessToken_signs
  | forgotPassword clientHost body broker =>
    apply forgot_rule (P := fun o => SignsFor env s _ o.2)
    · exact fun _ _ _ _ _ => .none rfl
    · exact fun email _ _ _ => forgotPassword_signs email broker
  | oauthCallback provider state answer => exact oauthCallback_signs
  | logout | verifyEmail | resetPassword | oauthLogin | oauthLink | listLinkedAccounts
  | unlinkProvider | readCurrentUser | updateCurrentUser | changeCurrentUserPassword
  | deactivateCurrentUser | updateUserStatus | adminDeactivateUser | listRoles | assignRole
  | revokeRole | websocket => exact .none (handle_issued id)

/-- A session token signed in a step is for a row that the step's request signs in. -/
theorem step_signs {l : Action × Reply} {i : Issued} (h : Step env s l s') (hi : i ∈ s'.issued)
    (hsession : IsSession i) : i ∈ s.issued ∨
      ∃ r user, l.1 = .request r ∧ SignsIn env s r user ∧ i.owner = user.id ∧
        i.token.sub = user.email := by
  obtain ⟨a, reply⟩ := l
  have hs : s' = (step env s a).2 := (congrArg Prod.snd h).symm
  cases a with
  | request r =>
    have hsigns : SignsFor env s r (handle env r s).2 := handle_signs r
    obtain ⟨new, hnew, hsigned⟩ := hsigns
    have hs' : s'.issued = s.issued ++ new := hs ▸ hnew
    rw [hs'] at hi
    rcases List.mem_append.mp hi with hi | hi
    · exact .inl hi
    · obtain ⟨user, huser⟩ := hsigned i hi hsession
      exact .inr ⟨r, user, rfl, huser⟩
  | cleanup | wait _ =>
    rw [hs] at hi
    exact .inl hi
  | grantBySql userId roleName =>
    rw [hs] at hi
    change i ∈ (grantBySql userId roleName s).issued at hi
    unfold grantBySql at hi
    split at hi <;> exact .inl hi

end Handlers

end FastApiAuth
