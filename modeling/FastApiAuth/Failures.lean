import FastApiAuth.EndpointLimits
import FastApiAuth.HandlerRules

/-!
# What goes wrong, and what is left behind

A handler commits before it calls the broker, pushes a notification, looks at `is_active`
or lets the response model check the address once more, so a request that is answered with
an error may have written. In the states that a deployment reaches, the requests that end in
a 500 are listed here with what they leave, and so is the one refusal that leaves anything.
-/

namespace FastApiAuth.Failures

set_option autoImplicit false

open RedisKeys RedisIsolation EndpointLimits Runs

/-- The ways into a 500, with the state that the request leaves. -/
inductive Raises (env : Env) (s : Server) : Request → Server → Prop where
  /-- The account is there and its token is signed, but no mail is queued. -/
  | unqueuedRegistration {clientHost email : String} {body : UserCreate}
      {password : NewPassword env} {redis : Redis Instant} {user : User} {db : Database} :
      registerLimiter.call clientHost s = (.ok (), { s with redis }) →
      env.emailStr body.email = some email →
      validateNewPassword env body.password = .ok password →
      s.db.userByEmail (env.lower email) = none →
      s.db.insertUser (env.lower email) (some (env.hash s.draws password.text)) true false s.now
        (s.db.roleByName defaultUserRoleName).toList = some (user, db) →
      Raises env s (.register clientHost body false)
        (Server.withRegistered env { s with redis } user db)
  /-- The mail is queued too, and then EmailStr refuses the lower-cased address. -/
  | unshownRegistration {clientHost email : String} {body : UserCreate}
      {password : NewPassword env} {redis : Redis Instant} {user : User} {db : Database} :
      registerLimiter.call clientHost s = (.ok (), { s with redis }) →
      env.emailStr body.email = some email →
      validateNewPassword env body.password = .ok password →
      s.db.userByEmail (env.lower email) = none →
      s.db.insertUser (env.lower email) (some (env.hash s.draws password.text)) true false s.now
        (s.db.roleByName defaultUserRoleName).toList = some (user, db) →
      env.emailStr user.email = none →
      Raises env s (.register clientHost body true)
        { Server.withRegistered env { s with redis } user db with
          mails := s.mails ++ [⟨.verification, user.email,
            verificationToken env { s with redis } user⟩] }
  /-- The password of a sign-in cannot be encoded, and there is a hash to check it against. -/
  | unencodableLogin {clientHost email hashedPassword : String} {body : LoginRequest}
      {redis : Redis Instant} {user : User} :
      loginLimiter.call clientHost s = (.ok (), { s with redis }) →
      env.emailStr body.email = some email →
      s.db.userByEmail (env.lower email) = some user →
      user.hashedPassword = some hashedPassword → body.password.text? = none →
      Raises env s (.login clientHost body) { s with redis }
  /-- The token is signed, but no mail is queued. -/
  | unqueuedReset {clientHost email : String} {body : ForgotPasswordRequest}
      {redis : Redis Instant} {user : User} :
      forgotPasswordLimiter.call clientHost s = (.ok (), { s with redis }) →
      env.emailStr body.email = some email →
      s.db.userByEmail (env.lower email) = some user → user.isActive = true →
      Raises env s (.forgotPassword clientHost body false)
        (Server.withResetToken env { s with redis } user)
  /-- The state is spent, and the exchange with the provider raises. -/
  | brokenExchange {provider state stateValue : String} :
      requireClient env provider = .ok () →
      s.redis.get s.now (stateKeyPrefix ++ state) = some stateValue →
      Raises env s (.oauthCallback provider state none)
        { s with redis := s.redis.delete (stateKeyPrefix ++ state) }
  | unshownSelf {credentials : Token} {user : User} : getCurrentUser s credentials = .ok user →
      env.emailStr user.email = none → Raises env s (.readCurrentUser credentials) s
  | unshownUnchanged {credentials : Token} {user : User} :
      getCurrentUser s credentials = .ok user → env.emailStr user.email = none →
      Raises env s (.updateCurrentUser credentials none) s
  | unshownRename {credentials : Token} {text email : String} {user : User} {db : Database} :
      getCurrentUser s credentials = .ok user → env.emailStr text = some email →
      s.db.changeEmail user.id (env.lower email) = some db →
      env.emailStr (env.lower email) = none →
      Raises env s (.updateCurrentUser credentials (some text)) { s with db }
  | unencodableChange {credentials : Token} {passwordData : PasswordChange}
      {newPassword : NewPassword env} {hashedPassword : String} {user : User} :
      getCurrentUser s credentials = .ok user →
      validateNewPassword env passwordData.newPassword = .ok newPassword →
      user.hashedPassword = some hashedPassword → passwordData.currentPassword.text? = none →
      Raises env s (.changeCurrentUserPassword credentials passwordData) s
  | unshownStatus {credentials : Token} {userId : Int} {payload : AdminUserUpdate}
      {admin user : User} : requirePermissions s credentials ["users:write"] = .ok admin →
      s.db.userById userId = some user → env.emailStr user.email = none →
      Raises env s (.updateUserStatus credentials userId payload)
        { s with db := s.db.amendUser user.id payload.apply }
  | unshownHeld {credentials : Token} {userId : Int} {roleName : String} {pushed : Bool}
      {admin user : User} {role : Role} :
      requirePermissions s credentials ["roles:manage"] = .ok admin →
      s.db.userById userId = some user → s.db.roleByName roleName = some role →
      role ∈ s.db.rolesOf user.id → env.emailStr user.email = none →
      Raises env s (.assignRole credentials userId roleName pushed) s
  /-- The role is granted, and the push raises or the answer cannot show the user. -/
  | unansweredGrant {credentials : Token} {userId : Int} {roleName : String} {pushed : Bool}
      {admin user : User} {role : Role} :
      requirePermissions s credentials ["roles:manage"] = .ok admin →
      s.db.userById userId = some user → s.db.roleByName roleName = some role →
      role ∉ s.db.rolesOf user.id → pushed = false ∨ env.emailStr user.email = none →
      Raises env s (.assignRole credentials userId roleName pushed)
        { s with db := s.db.addUserRole user.id role.id }
  | unshownRevoke {credentials : Token} {userId : Int} {roleName : String} {admin user : User} :
      requirePermissions s credentials ["roles:manage"] = .ok admin →
      s.db.userById userId = some user → env.emailStr user.email = none →
      Raises env s (.revokeRole credentials userId roleName)
        { s with db := s.db.dropUserRole user.id roleName }

/-- A sign-in through a new identity whose e-mail belongs to an inactive account: it is
refused, and the link stays. -/
inductive LinksInactive (env : Env) (s : Server) : Request → Server → Prop where
  | mk {provider state stateValue email : String} {identity : Identity} {user : User}
      {db : Database} : requireClient env provider = .ok () →
      s.redis.get s.now (stateKeyPrefix ++ state) = some stateValue →
      callbackMode stateValue = .login →
      s.db.linkByIdentity provider identity.providerUserId = none →
      identity.email = some email → s.db.userByEmail email = some user →
      user.isActive = false →
      s.db.insertLink user.id provider identity.providerUserId identity.email s.now = some db →
      LinksInactive env s (.oauthCallback provider state (some identity))
        { s with redis := s.redis.delete (stateKeyPrefix ++ state), db }

/-- The constraints hold, and what Redis holds can be read back. -/
structure Sound (s : Server) : Prop where
  consistent : s.db.Consistent
  states : ∀ state e, s.redis.entry (stateKeyPrefix ++ state) = some e →
    callbackMode e.value ≠ .malformed
  counters : ∀ limiter ∈ endpointLimiters, ∀ clientHost,
    (limiter.call clientHost s).1 = .ok () ∨
      (limiter.call clientHost s).1 = .error tooManyRequests

section Reached

variable {env : Env} {s₀ s s' : Server} {h : List ApiTransition}

theorem minted_readable {t : ApiTransition} {state value : String} {mode : CallbackMode}
    (hm : Minted t state value mode) : mode ≠ .malformed := by
  cases hm with
  | login _ =>
    intro hmode
    cases hmode
  | link _ _ =>
    intro hmode
    cases hmode

theorem run_sound (h₀ : Initial s₀) (r : ApiRun env s₀ h s) : Sound s := by
  constructor
  · exact ApiRun.consistent h₀.consistent r
  · induction r with
    | start =>
      intro state e he
      rw [h₀.redis] at he
      cases he
    | snoc r hstep ih =>
      intro state e he
      rcases step_state_key hstep he with hold | hnew
      · exact ih state e hold
      · exact minted_readable hnew
  · intro limiter hmem clientHost
    have htracks := run_tracks h₀ r hmem clientHost
    have hseconds : 0 < limiter.seconds := by
      rw [(endpointLimiter_bounds hmem).2.1]
      decide
    have hcall := (RateLimiting.call_windows hseconds htracks.ordered htracks.entry).1
    split at hcall
    · exact Or.inl hcall
    · exact Or.inr hcall

end Reached

/-- How a request ends. -/
inductive Ends (env : Env) (s : Server) (r : Request) : Outcome → Prop where
  | answered {body : Body} {s' : Server} : Ends env s r (.ok body, s')
  | refused {e : HttpException} {redis : Redis Instant} : e ≠ internalServerError →
      Ends env s r (.error e, { s with redis })
  | raised {s' : Server} : Raises env s r s' → Ends env s r (.error internalServerError, s')
  | linkedInactive {s' : Server} : LinksInactive env s r s' →
      Ends env s r (.error inactiveAccount, s')

section Endings

variable {env : Env} {s : Server} {r : Request}

theorem ordinary_ne {e : HttpException} (he : e.Ordinary) : e ≠ internalServerError := by
  rintro rfl
  exact he.1 rfl

theorem ends_refused (e : HttpException) (he : e.Ordinary) : Ends env s r (.error e, s) :=
  .refused (ordinary_ne he)

theorem ends_userResponse {s₁ s' : Server} {user : User}
    (h : env.emailStr user.email = none → Raises env s r s') :
    Ends env s r (userResponse env s₁ user, s') := by
  unfold userResponse
  split
  · rename_i hnone
    exact .raised (h hnone)
  · exact .answered

theorem answerWithTokens_ends {s₁ : Server} (user : User) :
    Ends env s r (s₁.answerWithTokens env user) := by
  unfold Server.answerWithTokens
  exact .answered

/-- What a limiter refuses is a 429. -/
theorem ends_limited {limiter : RateLimiter} {clientHost : String} {redis : Redis Instant}
    {e : HttpException} {answer : Except HttpException Unit} (hs : Sound s)
    (hmem : limiter ∈ endpointLimiters)
    (hcall : limiter.call clientHost s = (answer, { s with redis }))
    (he : answer = .error e ∨ answer = .ok () ∧ e.Ordinary) :
    Ends env s r (.error e, { s with redis }) := by
  rcases he with rfl | ⟨_, hordinary⟩
  · rcases hs.counters limiter hmem clientHost with hok | hmany
    · rw [hcall] at hok
      cases hok
    · rw [hcall] at hmany
      cases hmany
      exact .refused (by decide)
  · exact .refused (ordinary_ne hordinary)

theorem callbackLogin_ends {provider state stateValue : String} {identity : Identity}
    (hclient : requireClient env provider = .ok ())
    (hstored : s.redis.get s.now (stateKeyPrefix ++ state) = some stateValue)
    (hmode : callbackMode stateValue = .login) :
    Ends env s (.oauthCallback provider state (some identity))
      (callbackLogin env provider identity
        { s with redis := s.redis.delete (stateKeyPrefix ++ state) }) := by
  apply callbackLogin_rule
  · intro e he
    exact .refused (ordinary_ne he)
  · intro existing user _ _
    apply answerActive_rule
    · intro _
      exact .refused (by decide)
    · intro _
      exact answerWithTokens_ends user
  · intro email user db hfree hemail huser hlink
    apply answerActive_rule
    · intro hinactive
      exact .linkedInactive (.mk hclient hstored hmode hfree hemail huser hinactive hlink)
    · intro _
      exact answerWithTokens_ends user
  · -- the row is new and active
    intro email user db db' _ _ _ hins _
    apply answerActive_rule
    · intro hinactive
      rw [(Database.insertUser_some hins).2.1] at hinactive
      cases hinactive
    · intro _
      exact answerWithTokens_ends user

theorem register_ends (hs : Sound s) (clientHost : String) (body : UserCreate) (broker : Bool) :
    Ends env s (.register clientHost body broker)
      (handle env (.register clientHost body broker) s) := by
  apply register_rule
  · intro answer e redis hcall he
    exact ends_limited hs (by simp [endpointLimiters]) hcall he
  intro email password redis hcall hemail hpassword
  apply registerUser_rule
  · intro e he
    exact .refused (ordinary_ne he)
  intro user db hfree hins
  constructor
  · rintro rfl
    exact .raised (.unqueuedRegistration hcall hemail hpassword hfree hins)
  · rintro rfl
    unfold registrationResponse
    split
    · rename_i hnone
      exact .raised (.unshownRegistration hcall hemail hpassword hfree hins hnone)
    · exact .answered

theorem login_ends (hs : Sound s) (clientHost : String) (body : LoginRequest) :
    Ends env s (.login clientHost body) (handle env (.login clientHost body) s) := by
  apply login_rule
  · intro answer e redis hcall he
    exact ends_limited hs (by simp [endpointLimiters]) hcall he
  intro email redis hcall hemail
  apply loginUser_rule
  · intro e he
    exact .refused (ordinary_ne he)
  · intro user hashedPassword huser hhash hraises
    exact .raised (.unencodableLogin hcall hemail huser hhash hraises)
  · intro user _ _ _ _ _ _
    exact answerWithTokens_ends user

theorem forgotPassword_ends (hs : Sound s) (clientHost : String) (body : ForgotPasswordRequest)
    (broker : Bool) : Ends env s (.forgotPassword clientHost body broker)
      (handle env (.forgotPassword clientHost body broker) s) := by
  apply forgot_rule
  · intro answer e redis hcall he
    exact ends_limited hs (by simp [endpointLimiters]) hcall he
  intro email redis hcall hemail
  apply forgotPassword_rule .answered
  intro user huser hactive
  constructor
  · rintro rfl
    exact .raised (.unqueuedReset hcall hemail huser hactive)
  · intro _
    exact .answered

/-- No state that Redis holds is malformed, so only the exchange can raise. -/
theorem oauthCallback_ends (hs : Sound s) (provider state : String) (answer : Option Identity) :
    Ends env s (.oauthCallback provider state answer)
      (handle env (.oauthCallback provider state answer) s) := by
  apply oauthCallback_rule ends_refused
  · rintro stateValue hclient hstored (rfl | hmalformed)
    · exact .raised (.brokenExchange hclient hstored)
    · obtain ⟨e, hfind, rfl⟩ := Option.map_eq_some_iff.mp hstored
      exact absurd hmalformed (hs.states state e (ExpiringStore.find_eq_some_iff.mp hfind).1)
  · intro stateValue identity linkingUserId _ _ _ _
    apply callbackLink_rule
    · intro e he
      exact .refused (ordinary_ne he)
    · intro _ user _ _ _
      exact answerWithTokens_ends user
    · intro user _ _ _ _
      exact answerWithTokens_ends user
  · rintro stateValue identity hclient hstored rfl hmode
    exact callbackLogin_ends hclient hstored hmode

theorem assignRole_ends (credentials : Token) (userId : Int) (roleName : String) (pushed : Bool) :
    Ends env s (.assignRole credentials userId roleName pushed)
      (handle env (.assignRole credentials userId roleName pushed) s) := by
  apply withPermissions_rule ends_refused
  intro admin hadmin
  apply assignRole_rule ends_refused
  · intro user role huser hrole hheld
    exact ends_userResponse fun hnone => .unshownHeld hadmin huser hrole hheld hnone
  intro user role huser hrole hnew
  constructor
  · intro hpushed
    exact .raised (.unansweredGrant hadmin huser hrole hnew (.inl hpushed))
  · intro _
    exact ends_userResponse fun hnone => .unansweredGrant hadmin huser hrole hnew (.inr hnone)

theorem handle_ends (env : Env) (hs : Sound s) (r : Request) : Ends env s r (handle env r s) := by
  cases r with
  | register clientHost body broker => exact register_ends hs clientHost body broker
  | login clientHost body => exact login_ends hs clientHost body
  | refresh refreshToken => exact refreshAccessToken_rule ends_refused fun _ _ => .answered
  | logout credentials refreshToken =>
    exact logout_rule ends_refused (fun _ _ => .answered) fun _ _ _ _ _ _ => .answered
  | verifyEmail token =>
    exact verifyEmail_rule ends_refused .answered fun _ _ _ _ _ _ _ => .answered
  | forgotPassword clientHost body broker => exact forgotPassword_ends hs clientHost body broker
  | resetPassword token newPassword =>
    apply reset_rule ends_refused
    intro password _
    exact resetPassword_rule ends_refused fun _ _ _ _ _ => .answered
  | oauthLogin provider => exact oauthLogin_rule ends_refused fun _ => .answered
  | oauthLink provider credentials => exact oauthLink_rule ends_refused fun _ _ _ => .answered
  | oauthCallback provider state answer => exact oauthCallback_ends hs provider state answer
  | listLinkedAccounts credentials =>
    exact withCurrentUser_rule ends_refused fun _ _ => .answered
  | unlinkProvider provider credentials =>
    exact unlinkProvider_rule ends_refused fun _ _ _ _ _ => .answered
  | readCurrentUser credentials =>
    exact withCurrentUser_rule ends_refused fun _ huser =>
      ends_userResponse fun hnone => .unshownSelf huser hnone
  | updateCurrentUser credentials email =>
    apply updateCurrentUser_rule ends_refused
    · rintro user huser rfl
      exact ends_userResponse fun hnone => .unshownUnchanged huser hnone
    · rintro user text email' db huser rfl hemail hdb
      exact ends_userResponse fun hnone => .unshownRename huser hemail hdb hnone
  | changeCurrentUserPassword credentials passwordData =>
    apply changeCurrentUserPassword_rule ends_refused
    · intro user hashedPassword newPassword huser hnew hhash hraises
      exact .raised (.unencodableChange huser hnew hhash hraises)
    · intro _ _ _ _ _ _ _
      exact .answered
  | deactivateCurrentUser credentials =>
    exact deactivateCurrentUser_rule ends_refused fun _ _ => .answered
  | updateUserStatus credentials userId payload =>
    apply withPermissions_rule ends_refused
    intro admin hadmin
    apply updateUserStatus_rule ends_refused
    intro user huser
    exact ends_userResponse fun hnone => .unshownStatus hadmin huser hnone
  | adminDeactivateUser credentials userId =>
    exact withPermissions_rule ends_refused fun _ _ =>
      adminDeactivateUser_rule ends_refused fun _ _ => .answered
  | listRoles credentials => exact withPermissions_rule ends_refused fun _ _ => .answered
  | assignRole credentials userId roleName pushed =>
    exact assignRole_ends credentials userId roleName pushed
  | revokeRole credentials userId roleName =>
    apply withPermissions_rule ends_refused
    intro admin hadmin
    apply revokeRole_rule ends_refused
    intro user huser
    exact ends_userResponse fun hnone => .unshownRevoke hadmin huser hnone
  | websocket token => exact websocketEndpoint_rule ends_refused fun _ _ => .answered

theorem handle_of_linksInactive {s' : Server} (h : LinksInactive env s r s') :
    handle env r s = (.error inactiveAccount, s') ∧ s'.db ≠ s.db := by
  cases h with
  | mk hclient hstored hmode hfree hemail huser hinactive hins =>
    constructor
    · change oauthCallback env _ _ (some _) s = _
      unfold oauthCallback callbackLogin attachIdentity answerActive
      simp only [hclient, hstored, hmode, hfree, hemail, huser]
      rw [← hemail]
      simp only [hins, hinactive]
      rfl
    · obtain ⟨_, _, rfl⟩ := Database.insertLink_some hins
      intro hsame
      have hlinks := congrArg Database.oauthAccounts hsame
      exact List.cons_ne_nil _ _ (List.append_right_eq_self.mp hlinks)

end Endings

def signUp (broker : Bool) : Request := .register "10.0.0.1" ⟨"a@b.c", "Secret123"⟩ broker

/-- A request that is refused otherwise has touched nothing but Redis, unless it has linked an
identity to an inactive account. -/
theorem refused_leaves_iff (env : Env) {s₀ s s' : Server} {h : List ApiTransition}
    (h₀ : Initial s₀) (r : ApiRun env s₀ h s) (request : Request) {e : HttpException}
    (hrefused : handle env request s = (.error e, s')) (he : e ≠ internalServerError) :
    s' ≠ { s with redis := s'.redis } ↔ LinksInactive env s request s' := by
  constructor
  · intro hchanged
    have hends := handle_ends env (run_sound h₀ r) request
    rw [hrefused] at hends
    cases hends with
    | refused _ => exact absurd rfl hchanged
    | raised _ => exact absurd rfl he
    | linkedInactive hlinks => exact hlinks
  · intro hlinks hsame
    have hdb := congrArg Server.db hsame
    exact (handle_of_linksInactive hlinks).2 hdb

def refusal : Reply → Option HttpException
  | .error e => some e
  | .ok _ => none

theorem eq_error_of_refusal {reply : Reply} {e : HttpException} (h : refusal reply = some e) :
    reply = .error e := by
  cases reply with
  | error e' => exact congrArg Except.error (Option.some.inj h)
  | ok body => cases h

/-- An account that was deactivated, in a deployment that is about to start. -/
def inactiveStart : Server :=
  { freshServer 0 with
    db := { (freshServer 0).db with
      users := [⟨1, "a@b.c", some "hash", false, true, 0⟩]
      nextUserId := 2 } }

theorem inactiveStart_initial : Initial inactiveStart := by
  have hlinks : (freshServer 0).db.oauthAccounts = [] := by decide
  have hroles : (freshServer 0).db.userRoles = [] := by decide
  refine ⟨?_, rfl, rfl, rfl⟩
  constructor <;> simp [inactiveStart, hlinks, hroles]

def loginCallback : Request := .oauthCallback "github" "state0" (some ⟨"17", some "a@b.c"⟩)

theorem refused_leaves_iff_sample :
    LinksInactive asciiEnv (exec (step asciiEnv) inactiveStart [.request (.oauthLogin "github")])
      loginCallback (handle asciiEnv loginCallback
        (exec (step asciiEnv) inactiveStart [.request (.oauthLogin "github")])).2 := by
  have hrefused : (handle asciiEnv loginCallback
      (exec (step asciiEnv) inactiveStart [.request (.oauthLogin "github")])).1 =
        .error inactiveAccount := eq_error_of_refusal (by decide +kernel)
  refine (refused_leaves_iff asciiEnv inactiveStart_initial (run_trace _ _ _) loginCallback
    (Prod.ext hrefused rfl) (by decide)).mp ?_
  intro hsame
  have hlinks := congrArg (fun s : Server => s.db.oauthAccounts.length) hsame
  exact absurd hlinks (by decide +kernel)

end FastApiAuth.Failures
