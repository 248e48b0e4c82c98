import FastApiAuth.HandlerRules

/-!
# What one action can do

`Effect env s a db new` lists, once and for all, the table writes an action can
commit and the tokens it can sign, each with the guards the code has passed by
then. Every law about runs is proved from `step_effect` and never unfolds a
handler again.
-/

namespace FastApiAuth

set_option autoImplicit false

open Database

/-- Access and refresh tokens that name `user` by its e-mail. -/
def SessionTokens (user : User) (new : List Issued) : Prop :=
  ∀ i ∈ new, i.owner = user.id ∧ i.token.sub = user.email ∧
    (i.token.type = "access" ∨ i.token.type = "refresh")

/-- The callback gets past the state check with an identity that has no link yet. -/
structure UnlinkedCallback (env : Env) (s : Server) (provider state : String)
    (identity : Identity) (mode : CallbackMode) : Prop where
  client : requireClient env provider = .ok ()
  stored : ∃ stateValue, s.redis.get s.now (stateKeyPrefix ++ state) = some stateValue ∧
    callbackMode stateValue = mode
  unlinked : s.db.linkByIdentity provider identity.providerUserId = none

/-- Who may switch the account of `user` off: its holder, or a holder of users:delete. -/
inductive Deactivates (s : Server) (user : User) : Request → Prop where
  | holder {credentials : Token} :
      getCurrentUser s credentials = .ok user →
      Deactivates s user (.deactivateCurrentUser credentials)
  | administrator {credentials : Token} {userId : Int} {admin : User} :
      requirePermissions s credentials ["users:delete"] = .ok admin →
      s.db.userById userId = some user →
      Deactivates s user (.adminDeactivateUser credentials userId)

theorem Deactivates.mem {s : Server} {user : User} {r : Request} (h : Deactivates s user r) :
    user ∈ s.db.users := by
  cases h with
  | holder huser => exact getCurrentUser_mem huser
  | administrator _ huser => exact (userById_some huser).1

inductive Effect (env : Env) (s : Server) : Action → Database → List Issued → Prop where
  | quiet {a : Action} : Effect env s a s.db []
  | session {r : Request} {user : User} {new : List Issued} :
      user ∈ s.db.users → SessionTokens user new → Effect env s (.request r) s.db new
  | registered {clientHost : String} {body : UserCreate} {broker : Bool} {email : String}
      {password : NewPassword env} {user : User} {db : Database} {token : Token} :
      (registerLimiter.call clientHost s).1 = .ok () →
      env.emailStr body.email = some email →
      validateNewPassword env body.password = .ok password →
      s.db.insertUser (env.lower email) (some (env.hash s.draws password.text)) true false s.now
        (s.db.roleByName defaultUserRoleName).toList = some (user, db) →
      token.type = "email_verification" → token.sub = PyInt.str user.id →
      Effect env s (.request (.register clientHost body broker)) db [⟨token, user.id⟩]
  | resetMinted {clientHost : String} {body : ForgotPasswordRequest} {broker : Bool} {user : User}
      {token : Token} :
      user ∈ s.db.users → user.isActive = true →
      token.type = "password_reset" → token.sub = PyInt.str user.id →
      Effect env s (.request (.forgotPassword clientHost body broker)) s.db [⟨token, user.id⟩]
  | verified {token : Token} {user : User} {claims : TokenClaims Instant} :
      s.decodeEmailVerificationToken token = some claims →
      PyInt.int claims.subject = some (user.id : Int) →
      user ∈ s.db.users → user.isVerified = false →
      isTokenUsed s.redis s.now claims.jti = false →
      Effect env s (.request (.verifyEmail token)) (s.db.amendUser user.id (setVerified true)) []
  | passwordReset {token : Token} {text : String} {password : NewPassword env} {user : User}
      {claims : TokenClaims Instant} :
      s.decodePasswordResetToken token = some claims →
      PyInt.int claims.subject = some (user.id : Int) →
      validateNewPassword env text = .ok password →
      user ∈ s.db.users → user.isActive = true → isTokenUsed s.redis s.now claims.jti = false →
      Effect env s (.request (.resetPassword token text))
        (s.db.amendUser user.id (setHashedPassword (env.hash s.draws password.text))) []
  | signedUp {provider state email : String} {identity : Identity} {user : User}
      {db db' : Database} {new : List Issued} :
      UnlinkedCallback env s provider state identity .login → identity.email = some email →
      s.db.insertUser email none true true s.now [] = some (user, db) →
      db.insertLink user.id provider identity.providerUserId identity.email s.now = some db' →
      SessionTokens user new →
      Effect env s (.request (.oauthCallback provider state (some identity))) db' new
  | autoLinked {provider state email : String} {identity : Identity} {user : User}
      {db : Database} {new : List Issued} :
      UnlinkedCallback env s provider state identity .login → identity.email = some email →
      s.db.userByEmail email = some user →
      s.db.insertLink user.id provider identity.providerUserId identity.email s.now = some db →
      SessionTokens user new →
      Effect env s (.request (.oauthCallback provider state (some identity))) db new
  | linked {provider state : String} {identity : Identity} {linkingUserId : Int} {user : User}
      {db : Database} {new : List Issued} :
      UnlinkedCallback env s provider state identity (.link linkingUserId) →
      s.db.userById linkingUserId = some user →
      s.db.insertLink user.id provider identity.providerUserId identity.email s.now = some db →
      SessionTokens user new →
      Effect env s (.request (.oauthCallback provider state (some identity))) db new
  | unlinked {provider : String} {credentials : Token} {user : User} {link : OAuthAccount} :
      getCurrentUser s credentials = .ok user → s.db.linkOf user.id provider = some link →
      refusesUnlink user (s.db.linksOf user.id).length = false →
      Effect env s (.request (.unlinkProvider provider credentials)) (s.db.deleteLink link.id) []
  | emailChanged {credentials : Token} {text email : String} {user : User} {db : Database} :
      getCurrentUser s credentials = .ok user → env.emailStr text = some email →
      s.db.changeEmail user.id (env.lower email) = some db →
      Effect env s (.request (.updateCurrentUser credentials (some text))) db []
  | passwordChanged {credentials : Token} {passwordData : PasswordChange} {user : User}
      {hashedPassword : String} {password : NewPassword env} :
      getCurrentUser s credentials = .ok user → user.hashedPassword = some hashedPassword →
      verifyPassword env passwordData.currentPassword hashedPassword = some true →
      validateNewPassword env passwordData.newPassword = .ok password →
      Effect env s (.request (.changeCurrentUserPassword credentials passwordData))
        (s.db.amendUser user.id (setHashedPassword (env.hash s.draws password.text))) []
  | deactivated {r : Request} {user : User} :
      Deactivates s user r →
      Effect env s (.request r) (s.db.amendUser user.id (setActive false)) []
  | statusUpdated {credentials : Token} {userId : Int} {payload : AdminUserUpdate}
      {admin user : User} :
      requirePermissions s credentials ["users:write"] = .ok admin →
      s.db.userById userId = some user →
      Effect env s (.request (.updateUserStatus credentials userId payload))
        (s.db.amendUser user.id payload.apply) []
  | roleAssigned {credentials : Token} {userId : Int} {roleName : String} {pushed : Bool}
      {admin user : User} {role : Role} :
      requirePermissions s credentials ["roles:manage"] = .ok admin →
      s.db.userById userId = some user → s.db.roleByName roleName = some role →
      role ∉ s.db.rolesOf user.id →
      Effect env s (.request (.assignRole credentials userId roleName pushed))
        (s.db.addUserRole user.id role.id) []
  | roleRevoked {credentials : Token} {userId : Int} {roleName : String} {admin user : User} :
      requirePermissions s credentials ["roles:manage"] = .ok admin →
      s.db.userById userId = some user →
      Effect env s (.request (.revokeRole credentials userId roleName))
        (s.db.dropUserRole user.id roleName) []
  | cleaned : Effect env s .cleanup (s.db.deleteUsers (staleAt s.now)) []
  | grantedBySql {userId : Nat} {roleName : String} {user : User} {role : Role} :
      s.db.userById userId = some user → s.db.roleByName roleName = some role →
      Effect env s (.grantBySql userId roleName) (s.db.addUserRole user.id role.id) []

/-- The server `s'` is one that an action with an effect on `s` can leave. -/
structure Does (env : Env) (s : Server) (a : Action) (s' : Server) : Prop where
  now : s.now ≤ s'.now
  effect : ∃ new, s'.issued = s.issued ++ new ∧ Effect env s a s'.db new

variable {env : Env} {s s' : Server} {a : Action} {user : User}

theorem Does.quiet (hnow : s.now ≤ s'.now) (hi : s'.issued = s.issued) (hdb : s'.db = s.db) :
    Does env s a s' :=
  ⟨hnow, [], by rw [hi, List.append_nil], hdb ▸ .quiet⟩

theorem Does.writes (hnow : s'.now = s.now) (hi : s'.issued = s.issued)
    (he : Effect env s a s'.db []) : Does env s a s' :=
  ⟨hnow.ge, [], by rw [hi, List.append_nil], he⟩

theorem does_refused (e : HttpException) (_ : e.Ordinary) :
    Does env s a ((.error e, s) : Outcome).2 :=
  .quiet le_rfl rfl rfl

section SharedParts

/-- Signing the pair of session tokens changes nothing but the list of tokens. -/
theorem answerWithTokens_spec (env : Env) (user : User) (s : Server) :
    ∃ accessToken refreshToken,
      (s.answerWithTokens env user).1 = .ok (.tokenResponse accessToken refreshToken "bearer") ∧
      (s.answerWithTokens env user).2.db = s.db ∧ (s.answerWithTokens env user).2.now = s.now ∧
      (s.answerWithTokens env user).2.issued =
        s.issued ++ [⟨accessToken, user.id⟩, ⟨refreshToken, user.id⟩] ∧
      accessToken.sub = user.email ∧ accessToken.type = "access" ∧
      refreshToken.sub = user.email ∧ refreshToken.type = "refresh" :=
  ⟨_, _, rfl, rfl, rfl, by simp [Server.answerWithTokens, Server.createAccessToken,
    Server.createRefreshToken, Server.createToken], rfl, rfl, rfl, rfl⟩

/-- The answer is a pair of tokens that name the user. -/
def AnswersFor (reply : Reply) (user : User) : Prop :=
  ∃ accessToken refreshToken, reply = .ok (.tokenResponse accessToken refreshToken "bearer") ∧
    accessToken.sub = user.email ∧ refreshToken.sub = user.email

theorem not_answersFor_error (e : HttpException) : ¬ AnswersFor (.error e) user := by
  rintro ⟨_, _, h, _⟩
  cases h

theorem answerWithTokens_answersFor (env : Env) (user : User) (s : Server) :
    AnswersFor (s.answerWithTokens env user).1 user := by
  obtain ⟨accessToken, refreshToken, hreply, _, _, _, hsub, _, hsub', _⟩ :=
    answerWithTokens_spec env user s
  exact ⟨accessToken, refreshToken, hreply, hsub, hsub'⟩

theorem AnswersFor.email_eq {v : User} (h : AnswersFor (s.answerWithTokens env v).1 user) :
    v.email = user.email := by
  obtain ⟨accessToken, _, hreply, _, _, _, hsub, _⟩ := answerWithTokens_spec env v s
  obtain ⟨accessToken', _, hreply', hsub', _⟩ := h
  cases hreply.symm.trans hreply'
  exact hsub.symm.trans hsub'

theorem answerWithTokens_session (env : Env) (user : User) (s : Server) :
    (s.answerWithTokens env user).2.db = s.db ∧ (s.answerWithTokens env user).2.now = s.now ∧
      ∃ new, (s.answerWithTokens env user).2.issued = s.issued ++ new ∧
        SessionTokens user new := by
  obtain ⟨accessToken, refreshToken, _, hdb, hnow, hi, h⟩ :=
    answerWithTokens_spec env user s
  refine ⟨hdb, hnow, _, hi, ?_⟩
  simp [SessionTokens, h]

/-- The gate of login mode signs the pair or nothing. -/
theorem answerActive_spec (env : Env) (user : User) (s : Server) :
    (answerActive env user s).2.db = s.db ∧ (answerActive env user s).2.now = s.now ∧
      ∃ new, (answerActive env user s).2.issued = s.issued ++ new ∧ SessionTokens user new := by
  unfold answerActive
  split
  · exact ⟨rfl, rfl, [], by simp, by simp [SessionTokens]⟩
  · exact answerWithTokens_session env user s

/-- An answer with session tokens after these writes. -/
theorem Does.session {s₁ : Server} (hnow : s₁.now = s.now) (hissued : s₁.issued = s.issued)
    (he : ∀ new, SessionTokens user new → Effect env s a s₁.db new) :
    Does env s a (s₁.answerWithTokens env user).2 := by
  obtain ⟨hdb, hnow', new, hi, hnew⟩ := answerWithTokens_session env user s₁
  refine ⟨(hnow'.trans hnow).ge, new, hi.trans (by rw [hissued]), ?_⟩
  rw [hdb]
  exact he new hnew

theorem Does.active {s₁ : Server} (hnow : s₁.now = s.now) (hissued : s₁.issued = s.issued)
    (he : ∀ new, SessionTokens user new → Effect env s a s₁.db new) :
    Does env s a (answerActive env user s₁).2 := by
  obtain ⟨hdb, hnow', new, hi, hnew⟩ := answerActive_spec env user s₁
  refine ⟨(hnow'.trans hnow).ge, new, hi.trans (by rw [hissued]), ?_⟩
  rw [hdb]
  exact he new hnew

end SharedParts

section Endpoints

theorem registerUser_does {clientHost : String} {body : UserCreate} {broker : Bool}
    {email : String} {password : NewPassword env} {redis : Redis Instant}
    (hpass : (registerLimiter.call clientHost s).1 = .ok ())
    (hemail : env.emailStr body.email = some email)
    (hpassword : validateNewPassword env body.password = .ok password) :
    Does env s (.request (.register clientHost body broker))
      (registerUser env email password broker { s with redis }).2 := by
  apply registerUser_rule (P := fun o => Does env s (.request (.register clientHost body broker))
    o.2)
  · exact fun _ _ => .quiet le_rfl rfl rfl
  · -- the mail queue decides the reply; the row and the token are there either way
    intro user db _ hins
    exact ⟨fun _ => ⟨le_rfl, _, rfl, .registered hpass hemail hpassword hins rfl rfl⟩,
      fun _ => ⟨le_rfl, _, rfl, .registered hpass hemail hpassword hins rfl rfl⟩⟩

theorem loginUser_does {r : Request} {email : String} {password : PyStr} {redis : Redis Instant} :
    Does env s (.request r) (loginUser env email password { s with redis }).2 := by
  apply loginUser_rule (P := fun o => Does env s (.request r) o.2)
  · exact fun _ _ => .quiet le_rfl rfl rfl
  · exact fun _ _ _ _ _ => .quiet le_rfl rfl rfl
  · intro user _ huser _ _ _ _
    exact .session rfl rfl fun new hnew => .session (userByEmail_some huser).1 hnew

theorem refreshAccessToken_does {r : Request} {refreshToken : Token} :
    Does env s (.request r) (refreshAccessToken env refreshToken s).2 := by
  apply refreshAccessToken_rule (P := fun o => Does env s (.request r) o.2) does_refused
  intro user huser
  obtain ⟨_, _, _, hmem, _⟩ := refreshingUser_ok huser
  refine ⟨le_rfl, _, rfl, .session (userByEmail_some hmem).1 ?_⟩
  intro i hi
  rw [List.mem_singleton.mp hi]
  exact ⟨rfl, rfl, Or.inl rfl⟩

theorem logout_does {r : Request} {credentials : Token} {refreshToken : Option Token} :
    Does env s (.request r) (logout credentials refreshToken s).2 :=
  logout_rule (P := fun o => Does env s (.request r) o.2) does_refused
    (fun _ _ => .quiet le_rfl rfl rfl) fun _ _ _ _ _ _ => .quiet le_rfl rfl rfl

theorem verifyEmail_does {token : Token} :
    Does env s (.request (.verifyEmail token)) (verifyEmail token s).2 := by
  apply verifyEmail_rule (P := fun o => Does env s (.request (.verifyEmail token)) o.2)
    does_refused
  · exact .quiet le_rfl rfl rfl
  · intro claims user hclaims hint hmem hver hunused
    exact .writes rfl rfl (.verified hclaims hint hmem hver hunused)

theorem forgotPassword_does {clientHost : String} {body : ForgotPasswordRequest} {broker : Bool}
    {email : String} {redis : Redis Instant} :
    Does env s (.request (.forgotPassword clientHost body broker))
      (forgotPassword env email broker { s with redis }).2 := by
  apply forgotPassword_rule
    (P := fun o => Does env s (.request (.forgotPassword clientHost body broker)) o.2)
  · exact .quiet le_rfl rfl rfl
  · intro user huser hactive
    have hmem := (userByEmail_some huser).1
    exact ⟨fun _ => ⟨le_rfl, _, rfl, .resetMinted hmem hactive rfl rfl⟩,
      fun _ => ⟨le_rfl, _, rfl, .resetMinted hmem hactive rfl rfl⟩⟩

theorem resetPassword_does {token : Token} {text : String} {password : NewPassword env}
    (hpassword : validateNewPassword env text = .ok password) :
    Does env s (.request (.resetPassword token text)) (resetPassword env token password s).2 := by
  apply resetPassword_rule (P := fun o => Does env s (.request (.resetPassword token text)) o.2)
    does_refused
  intro claims user hclaims hunused huser
  obtain ⟨hint, hmem, hactive, _⟩ := resettingUser_ok huser
  exact .writes rfl rfl (.passwordReset hclaims hint hpassword hmem hactive hunused)

theorem callbackLink_does {provider state : String} {identity : Identity} {linkingUserId : Int}
    {redis : Redis Instant}
    (hcall : s.db.linkByIdentity provider identity.providerUserId = none →
      UnlinkedCallback env s provider state identity (.link linkingUserId)) :
    Does env s (.request (.oauthCallback provider state (some identity)))
      (callbackLink env provider identity linkingUserId { s with redis }).2 := by
  apply callbackLink_rule
    (P := fun o => Does env s (.request (.oauthCallback provider state (some identity))) o.2)
  · exact fun _ _ => .quiet le_rfl rfl rfl
  · intro existing user _ _ huser
    exact .session rfl rfl fun new hnew => .session (userById_some huser).1 hnew
  · intro user db hnone huser hlink
    exact .session rfl rfl fun new hnew => .linked (hcall hnone) huser hlink hnew

theorem callbackLogin_does {provider state : String} {identity : Identity} {redis : Redis Instant}
    (hcall : s.db.linkByIdentity provider identity.providerUserId = none →
      UnlinkedCallback env s provider state identity .login) :
    Does env s (.request (.oauthCallback provider state (some identity)))
      (callbackLogin env provider identity { s with redis }).2 := by
  apply callbackLogin_rule
    (P := fun o => Does env s (.request (.oauthCallback provider state (some identity))) o.2)
  · exact fun _ _ => .quiet le_rfl rfl rfl
  · intro existing user _ huser
    exact .active rfl rfl fun new hnew => .session (userById_some huser).1 hnew
  · intro email user db hnone hemail huser hlink
    exact .active rfl rfl fun new hnew => .autoLinked (hcall hnone) hemail huser hlink hnew
  · intro email user db db' hnone hemail _ hins hlink
    exact .active rfl rfl fun new hnew => .signedUp (hcall hnone) hemail hins hlink hnew

theorem oauthCallback_does {provider state : String} {answer : Option Identity} :
    Does env s (.request (.oauthCallback provider state answer))
      (oauthCallback env provider state answer s).2 := by
  apply oauthCallback_rule
    (P := fun o => Does env s (.request (.oauthCallback provider state answer)) o.2)
    does_refused
  · exact fun _ _ _ _ => .quiet le_rfl rfl rfl
  · rintro stateValue identity linkingUserId hclient hstate rfl hmode
    exact callbackLink_does fun hnone => ⟨hclient, ⟨stateValue, hstate, hmode⟩, hnone⟩
  · rintro stateValue identity hclient hstate rfl hmode
    exact callbackLogin_does fun hnone => ⟨hclient, ⟨stateValue, hstate, hmode⟩, hnone⟩

theorem updateCurrentUser_does {credentials : Token} {email : Option String} :
    Does env s (.request (.updateCurrentUser credentials email))
      (updateCurrentUser env credentials email s).2 := by
  apply updateCurrentUser_rule
    (P := fun o => Does env s (.request (.updateCurrentUser credentials email)) o.2) does_refused
  · exact fun _ _ _ => .quiet le_rfl rfl rfl
  · rintro user text email' db huser rfl hemail hdb
    exact .writes rfl rfl (.emailChanged huser hemail hdb)

theorem changeCurrentUserPassword_does {credentials : Token} {passwordData : PasswordChange} :
    Does env s (.request (.changeCurrentUserPassword credentials passwordData))
      (changeCurrentUserPassword env credentials passwordData s).2 := by
  apply changeCurrentUserPassword_rule
    (P := fun o => Does env s (.request (.changeCurrentUserPassword credentials passwordData)) o.2)
    does_refused
  · exact fun _ _ _ _ _ _ _ => .quiet le_rfl rfl rfl
  · intro user hashedPassword newPassword huser hnew hstored hcurrent
    exact .writes rfl rfl (.passwordChanged huser hstored hcurrent hnew)

theorem assignRole_does {credentials : Token} {userId : Int} {roleName : String} {pushed : Bool}
    {admin : User} (hadmin : requirePermissions s credentials ["roles:manage"] = .ok admin) :
    Does env s (.request (.assignRole credentials userId roleName pushed))
      (assignRole env userId roleName pushed s).2 := by
  apply assignRole_rule
    (P := fun o => Does env s (.request (.assignRole credentials userId roleName pushed)) o.2)
    does_refused
  · exact fun _ _ _ _ _ => .quiet le_rfl rfl rfl
  · -- the push decides the reply; the role is granted either way
    intro user role huser hrole hnew
    exact ⟨fun _ => .writes rfl rfl (.roleAssigned hadmin huser hrole hnew),
      fun _ => .writes rfl rfl (.roleAssigned hadmin huser hrole hnew)⟩

theorem handle_does (r : Request) : Does env s (.request r) (handle env r s).2 := by
  cases r with
  | register clientHost body broker =>
    apply register_rule (P := fun o => Does env s _ o.2)
    · exact fun _ _ _ _ _ => .quiet le_rfl rfl rfl
    · intro email password redis hpass hemail hpassword
      exact registerUser_does (congrArg Prod.fst hpass) hemail hpassword
  | login clientHost body =>
    apply login_rule (P := fun o => Does env s _ o.2)
    · exact fun _ _ _ _ _ => .quiet le_rfl rfl rfl
    · exact fun _ _ _ _ => loginUser_does
  | refresh refreshToken => exact refreshAccessToken_does
  | logout credentials refreshToken => exact logout_does
  | verifyEmail token => exact verifyEmail_does
  | forgotPassword clientHost body broker =>
    apply forgot_rule (P := fun o => Does env s _ o.2)
    · exact fun _ _ _ _ _ => .quiet le_rfl rfl rfl
    · exact fun _ _ _ _ => forgotPassword_does
  | resetPassword token newPassword =>
    exact reset_rule (P := fun o => Does env s _ o.2) does_refused
      fun password hpassword => resetPassword_does hpassword
  | oauthLogin provider =>
    exact oauthLogin_rule (P := fun o => Does env s _ o.2) does_refused
      fun _ => .quiet le_rfl rfl rfl
  | oauthLink provider credentials =>
    exact oauthLink_rule (P := fun o => Does env s _ o.2) does_refused
      fun _ _ _ => .quiet le_rfl rfl rfl
  | oauthCallback provider state answer => exact oauthCallback_does
  | listLinkedAccounts credentials | readCurrentUser credentials =>
    exact withCurrentUser_rule (P := fun o => Does env s _ o.2) does_refused
      fun _ _ => .quiet le_rfl rfl rfl
  | unlinkProvider provider credentials =>
    exact unlinkProvider_rule (P := fun o => Does env s _ o.2) does_refused
      fun _ _ huser hlink hguard => .writes rfl rfl (.unlinked huser hlink hguard)
  | updateCurrentUser credentials email => exact updateCurrentUser_does
  | changeCurrentUserPassword credentials passwordData => exact changeCurrentUserPassword_does
  | deactivateCurrentUser credentials =>
    exact deactivateCurrentUser_rule (P := fun o => Does env s _ o.2) does_refused
      fun _ huser => .writes rfl rfl (.deactivated (.holder huser))
  | updateUserStatus credentials userId payload =>
    exact withPermissions_rule (P := fun o => Does env s _ o.2) does_refused fun _ hadmin =>
      updateUserStatus_rule (P := fun o => Does env s _ o.2) does_refused
        fun _ huser => .writes rfl rfl (.statusUpdated hadmin huser)
  | adminDeactivateUser credentials userId =>
    exact withPermissions_rule (P := fun o => Does env s _ o.2) does_refused fun _ hadmin =>
      adminDeactivateUser_rule (P := fun o => Does env s _ o.2) does_refused
        fun _ huser => .writes rfl rfl (.deactivated (.administrator hadmin huser))
  | listRoles credentials =>
    exact withPermissions_rule (P := fun o => Does env s _ o.2) does_refused
      fun _ _ => .quiet le_rfl rfl rfl
  | assignRole credentials userId role pushed =>
    exact withPermissions_rule (P := fun o => Does env s _ o.2) does_refused
      fun _ hadmin => assignRole_does hadmin
  | revokeRole credentials userId roleName =>
    exact withPermissions_rule (P := fun o => Does env s _ o.2) does_refused fun _ hadmin =>
      revokeRole_rule (P := fun o => Does env s _ o.2) does_refused
        fun _ huser => .writes rfl rfl (.roleRevoked hadmin huser)
  | websocket token =>
    exact websocketEndpoint_rule (P := fun o => Does env s _ o.2) does_refused
      fun _ _ => .quiet le_rfl rfl rfl

/-- Every step of a run does one of the listed things. -/
theorem step_effect {l : Action × Reply} (h : Step env s l s') : Does env s l.1 s' := by
  obtain ⟨a, reply⟩ := l
  have hs : s' = (step env s a).2 := (congrArg Prod.snd h).symm
  rw [hs]
  cases a with
  | request r => exact handle_does r
  | cleanup => exact .writes rfl rfl .cleaned
  | wait until_ => exact .quiet (le_max_left _ _) rfl rfl
  | grantBySql userId roleName =>
    exact grantBySql_rule (P := Does env s _) (.quiet le_rfl rfl rfl)
      fun _ _ huser hrole => .writes rfl rfl (.grantedBySql huser hrole)

/-- The constraints of the tables hold after every action. -/
theorem Effect.consistent {db : Database} {new : List Issued} (h : Effect env s a db new)
    (hc : s.db.Consistent) : db.Consistent := by
  cases h with
  | quiet | session _ _ | resetMinted _ _ _ _ => exact hc
  | registered _ _ _ hins _ _ => exact insertUser_consistent hc hins
  | verified _ _ _ _ _ | passwordReset _ _ _ _ _ _ | passwordChanged _ _ _ _ | deactivated _
  | statusUpdated _ _ =>
    exact amendUser_consistent_of_email hc (fun _ => rfl) (fun _ => rfl)
  | signedUp _ _ hins hlink _ => exact insertLink_consistent (insertUser_consistent hc hins) hlink
  | autoLinked _ _ _ hlink _ => exact insertLink_consistent hc hlink
  | linked _ _ hlink _ => exact insertLink_consistent hc hlink
  | unlinked _ _ _ => exact deleteLink_consistent hc _
  | emailChanged _ _ hdb => exact changeEmail_consistent hc hdb
  | roleAssigned _ hu _ _ => exact addUserRole_consistent hc (userById_some hu).1
  | roleRevoked _ _ => exact dropUserRole_consistent hc _ _
  | cleaned => exact deleteUsers_consistent hc _
  | grantedBySql hu _ => exact addUserRole_consistent hc (userById_some hu).1

theorem step_consistent {l : Action × Reply} (hc : s.db.Consistent) (h : Step env s l s') :
    s'.db.Consistent := by
  obtain ⟨_, _, heff⟩ := (step_effect h).effect
  exact heff.consistent hc

theorem ApiRun.consistent {s₀ : Server} {h : List ApiTransition} (hc : s₀.db.Consistent)
    (r : ApiRun env s₀ h s) : s.db.Consistent :=
  r.invariant (I := fun s => s.db.Consistent) hc step_consistent

end Endpoints

end FastApiAuth
