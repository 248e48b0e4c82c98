import FastApiAuth.Dependencies

/-!
# Rules for the handlers

One rule for each handler: a property of outcomes holds of the call if it holds of every
refusal, which leaves the server as it is, and of what the handler does once its guards
have passed. The outcomes are written out, with the tables, Redis, the tokens and mails
and the reply. Most endpoints read and write accounts only; `handle_unsigned` says so for
all of them.
-/

namespace FastApiAuth

set_option autoImplicit false

open Database

variable {env : Env} {s : Server} {user : User} {P : Outcome → Prop}

/-- The unique keys refuse nothing that the handler has looked for first. -/
theorem insertUser_ne_none {db : Database} {email : String} {hash : Option String}
    {isActive isVerified : Bool} {createdAt : Instant} {roles : List Role}
    (hfree : db.userByEmail email = none) :
    db.insertUser email hash isActive isVerified createdAt roles ≠ none := by
  obtain ⟨user, db', hsome⟩ := insertUser_of_free (Tables.lookup_eq_none_iff.mp hfree)
  rw [hsome]
  exact Option.some_ne_none _

theorem insertLink_ne_none {db : Database} {provider providerUserId : String}
    {email : Option String} {createdAt : Instant}
    (hfree : db.linkByIdentity provider providerUserId = none) (huser : user ∈ db.users) :
    db.insertLink user.id provider providerUserId email createdAt ≠ none := by
  obtain ⟨db', hsome⟩ := insertLink_of_free (linkByIdentity_none hfree) ⟨user, huser, rfl⟩
  rw [hsome]
  exact Option.some_ne_none _

section Accounts

/-- The token of the mail that register_user sends. -/
def verificationToken (env : Env) (s : Server) (user : User) : Token :=
  createToken s.now (env.uuid4 (s.draws + 1)) (PyInt.str user.id) "email_verification" (30 * 60)

/-- What register_user leaves once its row is there, but for the mail. -/
def Server.withRegistered (env : Env) (s : Server) (user : User) (db : Database) : Server :=
  { s with
    db
    issued := s.issued ++ [⟨verificationToken env s user, user.id⟩]
    draws := s.draws + 2 }

theorem registerUser_rule {email : String} {password : NewPassword env} {broker : Bool}
    (refused : ∀ e, e.Ordinary → P (.error e, s))
    (stored : ∀ user db, s.db.userByEmail (env.lower email) = none →
      s.db.insertUser (env.lower email) (some (env.hash s.draws password.text)) true false s.now
        (s.db.roleByName defaultUserRoleName).toList = some (user, db) →
      (broker = false → P (.error internalServerError, s.withRegistered env user db)) ∧
      (broker = true → P (registrationResponse env user,
        { s.withRegistered env user db with
          mails := s.mails ++ [⟨.verification, user.email, verificationToken env s user⟩] }))) :
    P (registerUser env email password broker s) := by
  unfold registerUser
  dsimp only
  split
  · exact refused _ (by decide)
  rename_i hfree
  split
  · rename_i hins
    exact absurd hins (insertUser_ne_none hfree)
  rename_i user db hins
  cases broker with
  | false => exact (stored user db hfree hins).1 rfl
  | true => exact (stored user db hfree hins).2 rfl

theorem loginUser_rule {email : String} {password : PyStr}
    (refused : ∀ e, e.Ordinary → P (.error e, s))
    (raised : ∀ user hashedPassword, s.db.userByEmail (env.lower email) = some user →
      user.hashedPassword = some hashedPassword → password.text? = none →
      P (.error internalServerError, s))
    (answered : ∀ user hashedPassword, s.db.userByEmail (env.lower email) = some user →
      user.hashedPassword = some hashedPassword →
      verifyPassword env password hashedPassword = some true → user.isVerified = true →
      user.isActive = true → P (s.answerWithTokens env user)) :
    P (loginUser env email password s) := by
  unfold loginUser
  split
  · exact refused _ (by decide)
  rename_i user huser
  split
  · exact refused _ (by decide)
  rename_i hashedPassword hhash
  split
  · rename_i hraised
    exact raised user hashedPassword huser hhash (Option.map_eq_none_iff.mp hraised)
  · exact refused _ (by decide)
  rename_i hverified
  split
  · exact refused _ (by decide)
  rename_i hisVerified
  split
  · exact refused _ (by decide)
  rename_i hisActive
  exact answered user hashedPassword huser hhash hverified (by simpa using hisVerified)
    (by simpa using hisActive)

theorem refreshAccessToken_rule {refreshToken : Token}
    (refused : ∀ e, e.Ordinary → P (.error e, s))
    (answered : ∀ user, refreshingUser s refreshToken = .ok user →
      P (.ok (.accessTokenResponse (s.createAccessToken env user.id user.email).1 "bearer"),
        (s.createAccessToken env user.id user.email).2)) :
    P (refreshAccessToken env refreshToken s) := by
  unfold refreshAccessToken
  split
  · rename_i e he
    refine refused e ?_
    unfold refreshingUser at he
    repeat' split at he
    all_goals
      cases he
      try decide
  · rename_i user huser
    exact answered user huser

theorem logout_rule {credentials : Token} {refreshToken : Option Token}
    (refused : ∀ e, e.Ordinary → P (.error e, s))
    (revoked : ∀ claims, s.decodeAccessToken credentials = some claims →
      P (.ok .noContent, s.blacklist claims))
    (revokedBoth : ∀ claims token refreshClaims, s.decodeAccessToken credentials = some claims →
      refreshToken = some token → s.decodeRefreshToken token = some refreshClaims →
      P (.ok .noContent, (s.blacklist claims).blacklist refreshClaims)) :
    P (logout credentials refreshToken s) := by
  unfold logout
  split
  · exact refused _ (by decide)
  rename_i claims hclaims
  dsimp only
  split
  · exact revoked claims hclaims
  · rename_i refreshClaims hrefresh
    obtain ⟨token, htoken, hrefresh⟩ := Option.bind_eq_some_iff.mp hrefresh
    exact revokedBoth claims token refreshClaims hclaims htoken hrefresh

theorem verifyEmail_rule {token : Token} (refused : ∀ e, e.Ordinary → P (.error e, s))
    (already : P (.ok (.messageResponse "Email is already verified"), s))
    (verified : ∀ claims user, s.decodeEmailVerificationToken token = some claims →
      PyInt.int claims.subject = some (user.id : Int) → user ∈ s.db.users →
      user.isVerified = false → isTokenUsed s.redis s.now claims.jti = false →
      P (.ok (.messageResponse "Email verified successfully"),
        Server.markUsed { s with db := s.db.amendUser user.id (setVerified true) } claims)) :
    P (verifyEmail token s) := by
  unfold verifyEmail
  split
  · exact refused _ (by decide)
  rename_i claims hclaims
  split
  · exact refused _ (by decide)
  rename_i userId hint
  split
  · exact refused _ (by decide)
  rename_i user huser
  obtain ⟨hmem, hid⟩ := userById_some huser
  split
  · exact already
  rename_i hverified
  split
  · exact refused _ (by decide)
  rename_i hunused
  exact verified claims user hclaims (hid ▸ hint) hmem (by simpa using hverified)
    (by simpa using hunused)

/-- The token of the mail that forgot_password sends. -/
def resetToken (env : Env) (s : Server) (user : User) : Token :=
  createToken s.now (env.uuid4 s.draws) (PyInt.str user.id) "password_reset" (15 * 60)

/-- What forgot_password leaves once the token is signed, but for the mail. -/
def Server.withResetToken (env : Env) (s : Server) (user : User) : Server :=
  { s with
    issued := s.issued ++ [⟨resetToken env s user, user.id⟩]
    draws := s.draws + 1 }

theorem forgotPassword_rule {email : String} {broker : Bool}
    (quiet : P (.ok (.messageResponse genericResetMessage), s))
    (signed : ∀ user, s.db.userByEmail (env.lower email) = some user → user.isActive = true →
      (broker = false → P (.error internalServerError, s.withResetToken env user)) ∧
      (broker = true → P (.ok (.messageResponse genericResetMessage),
        { s.withResetToken env user with
          mails := s.mails ++ [⟨.passwordReset, user.email, resetToken env s user⟩] }))) :
    P (forgotPassword env email broker s) := by
  unfold forgotPassword
  split
  · exact quiet
  rename_i user huser
  split
  · exact quiet
  rename_i hactive
  have hsigned := signed user huser (by simpa using hactive)
  cases broker with
  | false => exact hsigned.1 rfl
  | true => exact hsigned.2 rfl

theorem resetPassword_rule {token : Token} {password : NewPassword env}
    (refused : ∀ e, e.Ordinary → P (.error e, s))
    (reset : ∀ claims user, s.decodePasswordResetToken token = some claims →
      isTokenUsed s.redis s.now claims.jti = false →
      resettingUser env s claims password.text = .ok user →
      P (.ok (.messageResponse "Password reset successfully"), Server.markUsed
        { s with
          db := s.db.amendUser user.id (setHashedPassword (env.hash s.draws password.text))
          draws := s.draws + 1 } claims)) :
    P (resetPassword env token password s) := by
  unfold resetPassword
  split
  · exact refused _ (by decide)
  rename_i claims hclaims
  split
  · exact refused _ (by decide)
  rename_i hunused
  split
  · rename_i e he
    refine refused e ?_
    unfold resettingUser at he
    repeat' split at he
    all_goals
      cases he
      try decide
  · rename_i user huser
    exact reset claims user hclaims (by simpa using hunused) huser

end Accounts

section OAuth

theorem oauthLogin_rule {provider : String} (refused : ∀ e, e.Ordinary → P (.error e, s))
    (redirected : requireClient env provider = .ok () → P (redirectWithState env "login" s)) :
    P (oauthLogin env provider s) := by
  unfold oauthLogin
  split
  · rename_i e he
    exact refused e (requireClient_known he)
  · rename_i hclient
    exact redirected hclient

theorem answerActive_rule (refused : user.isActive = false → P (.error inactiveAccount, s))
    (answered : user.isActive = true → P (s.answerWithTokens env user)) :
    P (answerActive env user s) := by
  unfold answerActive
  split
  · rename_i hinactive
    exact refused (by simpa using hinactive)
  · rename_i hactive
    exact answered (by simpa using hactive)

theorem callbackLink_rule {provider : String} {identity : Identity} {linkingUserId : Int}
    (refused : ∀ e, e.Ordinary → P (.error e, s))
    (again : ∀ existing user,
      s.db.linkByIdentity provider identity.providerUserId = some existing →
      (existing.userId : Int) = linkingUserId → s.db.userById linkingUserId = some user →
      P (s.answerWithTokens env user))
    (linked : ∀ user db, s.db.linkByIdentity provider identity.providerUserId = none →
      s.db.userById linkingUserId = some user →
      s.db.insertLink user.id provider identity.providerUserId identity.email s.now = some db →
      P (Server.answerWithTokens env user { s with db })) :
    P (callbackLink env provider identity linkingUserId s) := by
  unfold callbackLink
  split
  · rename_i existing hexisting
    split
    · exact refused _ (by decide)
    rename_i hsame
    split
    · exact refused _ (by decide)
    · rename_i user huser
      exact again existing user hexisting (not_not.mp hsame) huser
  · rename_i hnone
    split
    · exact refused _ (by decide)
    rename_i user huser
    split
    · rename_i hins
      exact absurd hins (insertLink_ne_none hnone (userById_some huser).1)
    · rename_i db hins
      exact linked user db hnone huser hins

/-- The three ways end in the gate on `is_active`. -/
theorem callbackLogin_rule {provider : String} {identity : Identity}
    (refused : ∀ e, e.Ordinary → P (.error e, s))
    (again : ∀ existing user,
      s.db.linkByIdentity provider identity.providerUserId = some existing →
      s.db.userById existing.userId = some user → P (answerActive env user s))
    (linked : ∀ email user db, s.db.linkByIdentity provider identity.providerUserId = none →
      identity.email = some email → s.db.userByEmail email = some user →
      s.db.insertLink user.id provider identity.providerUserId identity.email s.now = some db →
      P (answerActive env user { s with db }))
    (created : ∀ email user db db',
      s.db.linkByIdentity provider identity.providerUserId = none →
      identity.email = some email → s.db.userByEmail email = none →
      s.db.insertUser email none true true s.now [] = some (user, db) →
      db.insertLink user.id provider identity.providerUserId identity.email s.now = some db' →
      P (answerActive env user { s with db := db' })) :
    P (callbackLogin env provider identity s) := by
  unfold callbackLogin
  split
  · rename_i existing hexisting
    split
    · exact refused _ (by decide)
    · rename_i user huser
      exact again existing user hexisting huser
  rename_i hnone
  split
  · exact refused _ (by simp [HttpException.Ordinary])
  rename_i email hemail
  split
  · rename_i user huser
    unfold attachIdentity
    split
    · rename_i hins
      exact absurd hins (insertLink_ne_none hnone (userByEmail_some huser).1)
    · rename_i db hins
      exact linked email user db hnone hemail huser hins
  rename_i hfree
  split
  · rename_i hins
    exact absurd hins (insertUser_ne_none hfree)
  rename_i user db hins
  unfold attachIdentity
  split
  · rename_i hfail
    obtain ⟨db', hlink⟩ := exists_link_of_insertUser hins hnone
    cases hlink.symm.trans hfail
  · rename_i db' hlink
    exact created email user db db' hnone hemail hfree hins hlink

/-- The state is gone whatever comes of the exchange with the provider. -/
theorem oauthCallback_rule {provider state : String} {answer : Option Identity}
    (refused : ∀ e, e.Ordinary → P (.error e, s))
    (raised : ∀ stateValue, requireClient env provider = .ok () →
      s.redis.get s.now (stateKeyPrefix ++ state) = some stateValue →
      answer = none ∨ callbackMode stateValue = .malformed →
      P (.error internalServerError,
        { s with redis := s.redis.delete (stateKeyPrefix ++ state) }))
    (link : ∀ stateValue identity linkingUserId, requireClient env provider = .ok () →
      s.redis.get s.now (stateKeyPrefix ++ state) = some stateValue → answer = some identity →
      callbackMode stateValue = .link linkingUserId →
      P (callbackLink env provider identity linkingUserId
        { s with redis := s.redis.delete (stateKeyPrefix ++ state) }))
    (login : ∀ stateValue identity, requireClient env provider = .ok () →
      s.redis.get s.now (stateKeyPrefix ++ state) = some stateValue → answer = some identity →
      callbackMode stateValue = .login →
      P (callbackLogin env provider identity
        { s with redis := s.redis.delete (stateKeyPrefix ++ state) })) :
    P (oauthCallback env provider state answer s) := by
  unfold oauthCallback
  split
  · rename_i e he
    exact refused e (requireClient_known he)
  rename_i hclient
  split
  · exact refused _ (by decide)
  rename_i stateValue hstored
  dsimp only
  split
  · exact raised stateValue hclient hstored (.inl rfl)
  rename_i identity
  split
  · rename_i hmode
    exact raised stateValue hclient hstored (.inr hmode)
  · rename_i linkingUserId hmode
    exact link stateValue identity linkingUserId hclient hstored rfl hmode
  · rename_i hmode
    exact login stateValue identity hclient hstored rfl hmode

end OAuth

section CurrentUser

variable {credentials : Token}

theorem oauthLink_rule {provider : String} (refused : ∀ e, e.Ordinary → P (.error e, s))
    (redirected : ∀ user, getCurrentUser s credentials = .ok user →
      requireClient env provider = .ok () →
      P (redirectWithState env (linkPrefix ++ PyInt.str user.id) s)) :
    P (oauthLink env provider credentials s) := by
  apply withCurrentUser_rule refused
  intro user huser
  split
  · rename_i e he
    exact refused e (requireClient_known he)
  · rename_i hclient
    exact redirected user huser hclient

theorem unlinkProvider_rule {provider : String}
    (refused : ∀ e, e.Ordinary → P (.error e, s))
    (unlinked : ∀ user link, getCurrentUser s credentials = .ok user →
      s.db.linkOf user.id provider = some link →
      refusesUnlink user (s.db.linksOf user.id).length = false →
      P (.ok .noContent, { s with db := s.db.deleteLink link.id })) :
    P (unlinkProvider provider credentials s) := by
  apply withCurrentUser_rule refused
  intro user huser
  split
  · exact refused _ (by decide)
  rename_i link hlink
  dsimp only
  split
  · exact refused _ (by decide)
  · rename_i hguard
    exact unlinked user link huser hlink (by simpa using hguard)

/-- The row of the answer is the one that the new address has been given to. -/
theorem updateCurrentUser_rule {email : Option String}
    (refused : ∀ e, e.Ordinary → P (.error e, s))
    (unchanged : ∀ user, getCurrentUser s credentials = .ok user → email = none →
      P (userResponse env s user, s))
    (changed : ∀ user text email' db, getCurrentUser s credentials = .ok user →
      email = some text → env.emailStr text = some email' →
      s.db.changeEmail user.id (env.lower email') = some db →
      P (userResponse env { s with db } (setEmail (env.lower email') user), { s with db })) :
    P (updateCurrentUser env credentials email s) := by
  apply withCurrentUser_rule refused
  intro user huser
  split
  · exact unchanged user huser rfl
  rename_i text
  split
  · rename_i e he
    exact refused e (validateEmail_known he)
  rename_i email' hvalid
  unfold updateUserEmail
  dsimp only
  split
  · exact refused _ (by decide)
  rename_i hfree
  split
  · rename_i hnone
    unfold changeEmail at hnone
    rw [if_neg hfree] at hnone
    cases hnone
  · rename_i db hdb
    exact changed user text email' db huser rfl (validateEmail_ok hvalid) hdb

theorem changeCurrentUserPassword_rule {passwordData : PasswordChange}
    (refused : ∀ e, e.Ordinary → P (.error e, s))
    (raised : ∀ user hashedPassword newPassword, getCurrentUser s credentials = .ok user →
      validateNewPassword env passwordData.newPassword = .ok newPassword →
      user.hashedPassword = some hashedPassword → passwordData.currentPassword.text? = none →
      P (.error internalServerError, s))
    (changed : ∀ user hashedPassword newPassword, getCurrentUser s credentials = .ok user →
      validateNewPassword env passwordData.newPassword = .ok newPassword →
      user.hashedPassword = some hashedPassword →
      verifyPassword env passwordData.currentPassword hashedPassword = some true →
      P (.ok .noContent, { s with
        db := s.db.amendUser user.id (setHashedPassword (env.hash s.draws newPassword.text))
        draws := s.draws + 1 })) :
    P (changeCurrentUserPassword env credentials passwordData s) := by
  apply withCurrentUser_rule refused
  intro user huser
  split
  · rename_i e he
    exact refused e (validateNewPassword_known he)
  rename_i newPassword hnew
  unfold changeUserPassword
  split
  · exact refused _ (by decide)
  rename_i hashedPassword hhash
  split
  · rename_i hraised
    exact raised user hashedPassword newPassword huser hnew hhash
      (Option.map_eq_none_iff.mp hraised)
  · exact refused _ (by decide)
  rename_i hcurrent
  split
  · exact refused _ (by decide)
  · exact changed user hashedPassword newPassword huser hnew hhash hcurrent

theorem deactivateCurrentUser_rule (refused : ∀ e, e.Ordinary → P (.error e, s))
    (deactivated : ∀ user, getCurrentUser s credentials = .ok user →
      P (.ok .noContent, { s with db := s.db.amendUser user.id (setActive false) })) :
    P (deactivateCurrentUser credentials s) :=
  withCurrentUser_rule refused deactivated

end CurrentUser

section Administration

variable {userId : Int}

theorem updateUserStatus_rule {payload : AdminUserUpdate}
    (refused : ∀ e, e.Ordinary → P (.error e, s))
    (updated : ∀ user, s.db.userById userId = some user →
      P (userResponse env { s with db := s.db.amendUser user.id payload.apply }
          (payload.apply user),
        { s with db := s.db.amendUser user.id payload.apply })) :
    P (updateUserStatus env userId payload s) := by
  unfold updateUserStatus
  split
  · exact refused _ (by decide)
  · rename_i user huser
    exact updated user huser

theorem adminDeactivateUser_rule (refused : ∀ e, e.Ordinary → P (.error e, s))
    (deactivated : ∀ user, s.db.userById userId = some user →
      P (.ok .noContent, { s with db := s.db.amendUser user.id (setActive false) })) :
    P (adminDeactivateUser userId s) := by
  unfold adminDeactivateUser
  split
  · exact refused _ (by decide)
  · rename_i user huser
    exact deactivated user huser

/-- The role is granted before the push, and the address is checked after it. -/
theorem assignRole_rule {roleName : String} {pushed : Bool}
    (refused : ∀ e, e.Ordinary → P (.error e, s))
    (held : ∀ user role, s.db.userById userId = some user →
      s.db.roleByName roleName = some role → role ∈ s.db.rolesOf user.id →
      P (userResponse env s user, s))
    (granted : ∀ user role, s.db.userById userId = some user →
      s.db.roleByName roleName = some role → role ∉ s.db.rolesOf user.id →
      (pushed = false → P (.error internalServerError,
        { s with db := s.db.addUserRole user.id role.id })) ∧
      (pushed = true → P (userResponse env { s with db := s.db.addUserRole user.id role.id } user,
        { s with db := s.db.addUserRole user.id role.id }))) :
    P (assignRole env userId roleName pushed s) := by
  unfold assignRole
  split
  · exact refused _ (by decide)
  rename_i user huser
  split
  · exact refused _ (by decide)
  rename_i role hrole
  split
  · rename_i hheld
    exact held user role huser hrole hheld
  rename_i hnew
  cases pushed with
  | false => exact (granted user role huser hrole hnew).1 rfl
  | true => exact (granted user role huser hrole hnew).2 rfl

theorem revokeRole_rule {roleName : String} (refused : ∀ e, e.Ordinary → P (.error e, s))
    (revoked : ∀ user, s.db.userById userId = some user →
      P (userResponse env { s with db := s.db.dropUserRole user.id roleName } user,
        { s with db := s.db.dropUserRole user.id roleName })) :
    P (revokeRole env userId roleName s) := by
  unfold revokeRole
  split
  · exact refused _ (by decide)
  · rename_i user huser
    exact revoked user huser

theorem websocketEndpoint_rule {token : Token}
    (refused : ∀ e, e.Ordinary → P (.error e, s))
    (connected : ∀ user, getCurrentUserWs s token = some user →
      P (.ok (.connected user.id), s)) : P (websocketEndpoint token s) := by
  unfold websocketEndpoint
  split
  · exact refused _ (by decide)
  · rename_i user huser
    exact connected user huser

theorem grantBySql_rule {P : Server → Prop} {userId : Nat} {roleName : String} (none : P s)
    (granted : ∀ user role, s.db.userById userId = some user →
      s.db.roleByName roleName = some role →
      P { s with db := s.db.addUserRole user.id role.id }) :
    P (grantBySql userId roleName s) := by
  unfold grantBySql
  split
  · rename_i user role huser hrole
    exact granted user role huser hrole
  · exact none

end Administration

-- the requests with a limiter and a body, from the start
section Entry

theorem handle_register {clientHost email : String} {body : UserCreate} {broker : Bool}
    {password : NewPassword env} {redis : Redis Instant}
    (hcall : registerLimiter.call clientHost s = (.ok (), { s with redis }))
    (hemail : env.emailStr body.email = some email)
    (hpassword : validateNewPassword env body.password = .ok password) :
    handle env (.register clientHost body broker) s =
      registerUser env email password broker { s with redis } :=
  calc handle env (.register clientHost body broker) s
      = withValid (validateEmail env body.email) { s with redis } fun email =>
          withValid (validateNewPassword env body.password) { s with redis } fun password =>
            registerUser env email password broker { s with redis } := guard_of_ok hcall
    _ = withValid (validateNewPassword env body.password) { s with redis } fun password =>
          registerUser env email password broker { s with redis } :=
        withValid_of_ok (validateEmail_of_emailStr hemail)
    _ = registerUser env email password broker { s with redis } := withValid_of_ok hpassword

/-- An admitted and valid registration of a free address creates the row. -/
theorem register_creates {clientHost email : String} {body : UserCreate} (broker : Bool)
    {password : NewPassword env} (hpass : (registerLimiter.call clientHost s).1 = .ok ())
    (hemail : env.emailStr body.email = some email)
    (hpassword : validateNewPassword env body.password = .ok password)
    (hfree : s.db.userByEmail (env.lower email) = none) :
    ∃ u ∈ (handle env (.register clientHost body broker) s).2.db.users,
      u.id = s.db.nextUserId ∧ u.email = env.lower email := by
  obtain ⟨redis, hcall⟩ := call_eq_of_ok hpass
  rw [handle_register hcall hemail hpassword]
  unfold registerUser
  simp only [hfree, Server.hashPassword]
  split
  · rename_i hins
    exact absurd hins (insertUser_ne_none hfree)
  · rename_i user db hins
    obtain ⟨_, huser, rfl⟩ := insertUser_some hins
    have hmem : user ∈ s.db.users ++ [user] := List.mem_append_right _ (List.mem_singleton_self _)
    cases broker with
    | false => exact ⟨user, hmem, by rw [huser], by rw [huser]⟩
    | true => exact ⟨user, hmem, by rw [huser], by rw [huser]⟩

/-- A change of address that no other row stands in the way of is made. -/
theorem updateCurrentUser_renames {credentials : Token} {text email : String}
    (huser : getCurrentUser s credentials = .ok user) (hemail : env.emailStr text = some email)
    (hfree : ∀ u ∈ s.db.users, u.id ≠ user.id → u.email ≠ env.lower email) :
    ∃ u ∈ (handle env (.updateCurrentUser credentials (some text)) s).2.db.users,
      u.email = env.lower email := by
  have hnone : ¬ (s.db.users.any fun u => u.email = env.lower email ∧ u.id ≠ user.id) = true := by
    intro hany
    obtain ⟨u, hu, hmatch⟩ := List.any_eq_true.mp hany
    obtain ⟨he, hid⟩ := of_decide_eq_true hmatch
    exact hfree u hu hid he
  change ∃ u ∈ (withCurrentUser s credentials _).2.db.users, _
  rw [withCurrentUser_of_ok huser]
  simp only [validateEmail_of_emailStr hemail]
  unfold updateUserEmail
  simp only [if_neg hnone, changeEmail_of_free hfree]
  have hmem := getCurrentUser_mem huser
  exact ⟨_, mem_amendUser.mpr ⟨user, hmem, rfl⟩, by simp [setEmail]⟩

theorem register_rule {clientHost : String} {body : UserCreate} {broker : Bool}
    (refused : ∀ answer e redis, registerLimiter.call clientHost s = (answer, { s with redis }) →
      answer = .error e ∨ answer = .ok () ∧ e.Ordinary → P (.error e, { s with redis }))
    (runs : ∀ email password redis,
      registerLimiter.call clientHost s = (.ok (), { s with redis }) →
      env.emailStr body.email = some email →
      validateNewPassword env body.password = .ok password →
      P (registerUser env email password broker { s with redis })) :
    P (handle env (.register clientHost body broker) s) := by
  apply guard_rule
  · intro e redis hcall
    exact refused _ e redis hcall (.inl rfl)
  intro redis hcall
  apply withValid_rule
  · intro e he
    exact refused _ e redis hcall (.inr ⟨rfl, validateEmail_known he⟩)
  intro email hemail
  apply withValid_rule
  · intro e he
    exact refused _ e redis hcall (.inr ⟨rfl, validateNewPassword_known he⟩)
  intro password hpassword
  exact runs email password redis hcall (validateEmail_ok hemail) hpassword

theorem login_rule {clientHost : String} {body : LoginRequest}
    (refused : ∀ answer e redis, loginLimiter.call clientHost s = (answer, { s with redis }) →
      answer = .error e ∨ answer = .ok () ∧ e.Ordinary → P (.error e, { s with redis }))
    (runs : ∀ email redis, loginLimiter.call clientHost s = (.ok (), { s with redis }) →
      env.emailStr body.email = some email →
      P (loginUser env email body.password { s with redis })) :
    P (handle env (.login clientHost body) s) := by
  apply guard_rule
  · intro e redis hcall
    exact refused _ e redis hcall (.inl rfl)
  intro redis hcall
  apply withValid_rule
  · intro e he
    exact refused _ e redis hcall (.inr ⟨rfl, validateEmail_known he⟩)
  intro email hemail
  exact runs email redis hcall (validateEmail_ok hemail)

theorem forgot_rule {clientHost : String} {body : ForgotPasswordRequest} {broker : Bool}
    (refused : ∀ answer e redis,
      forgotPasswordLimiter.call clientHost s = (answer, { s with redis }) →
      answer = .error e ∨ answer = .ok () ∧ e.Ordinary → P (.error e, { s with redis }))
    (runs : ∀ email redis, forgotPasswordLimiter.call clientHost s = (.ok (), { s with redis }) →
      env.emailStr body.email = some email →
      P (forgotPassword env email broker { s with redis })) :
    P (handle env (.forgotPassword clientHost body broker) s) := by
  apply guard_rule
  · intro e redis hcall
    exact refused _ e redis hcall (.inl rfl)
  intro redis hcall
  apply withValid_rule
  · intro e he
    exact refused _ e redis hcall (.inr ⟨rfl, validateEmail_known he⟩)
  intro email hemail
  exact runs email redis hcall (validateEmail_ok hemail)

theorem reset_rule {token : Token} {newPassword : String}
    (refused : ∀ e, e.Ordinary → P (.error e, s))
    (runs : ∀ password, validateNewPassword env newPassword = .ok password →
      P (resetPassword env token password s)) :
    P (handle env (.resetPassword token newPassword) s) :=
  withValid_rule (fun e he => refused e (validateNewPassword_known he)) runs

end Entry

section OnAccounts

/-- The outcome hands out no token and leaves Redis as it is in `s`. -/
structure Plain (s : Server) (o : Outcome) : Prop where
  silent : handedOut o.1 = []
  redis : o.2.redis = s.redis

theorem plain_refused (e : HttpException) : Plain s (.error e, s) := ⟨rfl, rfl⟩

theorem registerUser_plain (email : String) (password : NewPassword env) (broker : Bool)
    (s : Server) : Plain s (registerUser env email password broker s) :=
  registerUser_rule (fun _ _ => plain_refused _) fun user _ _ _ =>
    ⟨fun _ => ⟨rfl, rfl⟩, fun _ => ⟨handedOut_registrationResponse user, rfl⟩⟩

theorem forgotPassword_plain (email : String) (broker : Bool) (s : Server) :
    Plain s (forgotPassword env email broker s) :=
  forgotPassword_rule ⟨rfl, rfl⟩ fun _ _ _ => ⟨fun _ => ⟨rfl, rfl⟩, fun _ => ⟨rfl, rfl⟩⟩

/-- Besides, no token at all is signed. -/
structure Unsigned (s : Server) (o : Outcome) : Prop extends Plain s o where
  issued : o.2.issued = s.issued

theorem unsigned_refused (e : HttpException) : Unsigned s (.error e, s) := ⟨plain_refused e, rfl⟩

theorem unsigned_userResponse {s' : Server} {user : User} (hredis : s'.redis = s.redis)
    (hissued : s'.issued = s.issued) : Unsigned s (userResponse env s' user, s') :=
  ⟨⟨handedOut_userResponse s' user, hredis⟩, hissued⟩

/-- The requests of a resolved user on accounts, and the socket's handshake. -/
def OnAccounts : Request → Prop
  | .listLinkedAccounts .. | .unlinkProvider .. | .readCurrentUser .. | .updateCurrentUser ..
  | .changeCurrentUserPassword .. | .deactivateCurrentUser .. | .updateUserStatus ..
  | .adminDeactivateUser .. | .listRoles .. | .assignRole .. | .revokeRole .. | .websocket .. =>
    True
  | _ => False

theorem handle_unsigned {r : Request} (hr : OnAccounts r) : Unsigned s (handle env r s) := by
  have refused : ∀ e : HttpException, e.Ordinary → Unsigned s (.error e, s) :=
    fun e _ => unsigned_refused e
  cases r with
  | register | login | refresh | logout | verifyEmail | forgotPassword | resetPassword
  | oauthLogin | oauthLink | oauthCallback => exact hr.elim
  | listLinkedAccounts credentials =>
    exact withCurrentUser_rule refused fun _ _ => ⟨⟨rfl, rfl⟩, rfl⟩
  | readCurrentUser credentials =>
    exact withCurrentUser_rule refused fun _ _ => unsigned_userResponse rfl rfl
  | unlinkProvider provider credentials =>
    exact unlinkProvider_rule refused fun _ _ _ _ _ => ⟨⟨rfl, rfl⟩, rfl⟩
  | updateCurrentUser credentials email =>
    exact updateCurrentUser_rule refused (fun _ _ _ => unsigned_userResponse rfl rfl)
      fun _ _ _ _ _ _ _ _ => unsigned_userResponse rfl rfl
  | changeCurrentUserPassword credentials passwordData =>
    exact changeCurrentUserPassword_rule refused (fun _ _ _ _ _ _ _ => unsigned_refused _)
      fun _ _ _ _ _ _ _ => ⟨⟨rfl, rfl⟩, rfl⟩
  | deactivateCurrentUser credentials =>
    exact deactivateCurrentUser_rule refused fun _ _ => ⟨⟨rfl, rfl⟩, rfl⟩
  | updateUserStatus credentials userId payload =>
    exact withPermissions_rule refused fun _ _ =>
      updateUserStatus_rule refused fun _ _ => unsigned_userResponse rfl rfl
  | adminDeactivateUser credentials userId =>
    exact withPermissions_rule refused fun _ _ =>
      adminDeactivateUser_rule refused fun _ _ => ⟨⟨rfl, rfl⟩, rfl⟩
  | listRoles credentials => exact withPermissions_rule refused fun _ _ => ⟨⟨rfl, rfl⟩, rfl⟩
  | assignRole credentials userId role pushed =>
    exact withPermissions_rule refused fun _ _ =>
      assignRole_rule refused (fun _ _ _ _ _ => unsigned_userResponse rfl rfl)
        fun _ _ _ _ _ => ⟨fun _ => ⟨⟨rfl, rfl⟩, rfl⟩, fun _ => unsigned_userResponse rfl rfl⟩
  | revokeRole credentials userId roleName =>
    exact withPermissions_rule refused fun _ _ =>
      revokeRole_rule refused fun _ _ => unsigned_userResponse rfl rfl
  | websocket token => exact websocketEndpoint_rule refused fun _ _ => ⟨⟨rfl, rfl⟩, rfl⟩

theorem handle_plain {r : Request} (hr : OnAccounts r) : Plain s (handle env r s) :=
  (handle_unsigned hr).toPlain

/-- The requests that sign a token of some kind. -/
def SignsTokens : Request → Prop
  | .register .. | .login .. | .refresh .. | .forgotPassword .. | .oauthCallback .. => True
  | _ => False

theorem handle_issued {r : Request} (hr : ¬ SignsTokens r) :
    (handle env r s).2.issued = s.issued := by
  have refused : ∀ e : HttpException, e.Ordinary →
      ((.error e, s) : Outcome).2.issued = s.issued := fun _ _ => rfl
  cases r with
  | register | login | refresh | forgotPassword | oauthCallback => exact absurd trivial hr
  | logout credentials refreshToken =>
    exact logout_rule (P := fun o => o.2.issued = s.issued) refused (fun _ _ => rfl)
      fun _ _ _ _ _ _ => rfl
  | verifyEmail token =>
    exact verifyEmail_rule (P := fun o => o.2.issued = s.issued) refused rfl
      fun _ _ _ _ _ _ _ => rfl
  | resetPassword token newPassword =>
    exact reset_rule (P := fun o => o.2.issued = s.issued) refused fun password _ =>
      resetPassword_rule (P := fun o => o.2.issued = s.issued) refused fun _ _ _ _ _ => rfl
  | oauthLogin provider =>
    exact oauthLogin_rule (P := fun o => o.2.issued = s.issued) refused fun _ => rfl
  | oauthLink provider credentials =>
    exact oauthLink_rule (P := fun o => o.2.issued = s.issued) refused fun _ _ _ => rfl
  | listLinkedAccounts | unlinkProvider | readCurrentUser | updateCurrentUser
  | changeCurrentUserPassword | deactivateCurrentUser | updateUserStatus | adminDeactivateUser
  | listRoles | assignRole | revokeRole | websocket =>
    refine (handle_unsigned ?_).issued
    trivial

end OnAccounts

end FastApiAuth
