import FastApiAuth.Server

/-!
# app/api/auth.py

Each endpoint runs its dependencies in the order the framework solves them (rate
limiter, current user, body), then the handler. A handler that has committed
keeps its commit when it raises afterwards.
-/

namespace FastApiAuth

set_option autoImplicit false

variable (env : Env)

def defaultUserRoleName : String := "user"

def emailTaken : HttpException :=
  { statusCode := 409, detail := "A user with this email already exists" }

/-- The response model checks the address of the row again. -/
def registrationResponse (user : User) : Reply :=
  match env.emailStr user.email with
  | none => .error internalServerError
  | some email =>
    .ok (.registrationResponse user.id email user.isActive user.isVerified
      "Registration successful. Check your email to verify your account.")

/-- `broker` says whether the queue takes the mail. -/
def registerUser (email : String) (password : NewPassword env) (broker : Bool) (s : Server) :
    Outcome :=
  let email := env.lower email
  match s.db.userByEmail email with
  | some _ => (.error emailTaken, s)
  | none =>
    let (hashedPassword, s) := s.hashPassword env password
    let roles := (s.db.roleByName defaultUserRoleName).toList
    match s.db.insertUser email (some hashedPassword) true false s.now roles with
    | none => (.error internalServerError, s)
    | some (user, db) =>
      let (token, s) := { s with db }.createEmailVerificationToken env user.id (PyInt.str user.id)
      match s.delay broker ⟨.verification, user.email, token⟩ with
      | none => (.error internalServerError, s)
      | some s => (registrationResponse env user, s)

def invalidCredentials : HttpException :=
  { statusCode := 401, detail := "Invalid email or password", headers := bearerChallenge }

def emailNotVerified : HttpException :=
  { statusCode := 403, detail := "Email address is not verified" }

def loginUser (email : String) (password : PyStr) (s : Server) : Outcome :=
  match s.db.userByEmail (env.lower email) with
  | none => (.error invalidCredentials, s)
  | some user =>
    match user.hashedPassword with
    | none => (.error invalidCredentials, s)
    | some hashedPassword =>
      match verifyPassword env password hashedPassword with
      | none => (.error internalServerError, s)
      | some false => (.error invalidCredentials, s)
      | some true =>
        if !user.isVerified then (.error emailNotVerified, s)
        else if !user.isActive then (.error inactiveAccount, s)
        else s.answerWithTokens env user

/-- The row a refresh token resolves to in refresh_access_token. -/
def refreshingUser (s : Server) (refreshToken : Token) : Except HttpException User :=
  match s.decodeRefreshToken refreshToken with
  | none => .error { statusCode := 401, detail := "Invalid or expired refresh token" }
  | some claims =>
    if isTokenBlacklisted s.redis s.now claims.jti then
      .error { statusCode := 401, detail := "Invalid or expired refresh token" }
    else
      match s.db.userByEmail claims.subject with
      | none => .error { statusCode := 401, detail := "User is unavailable" }
      | some user =>
        if !user.isActive then .error { statusCode := 401, detail := "User is unavailable" }
        else .ok user

def refreshAccessToken (refreshToken : Token) (s : Server) : Outcome :=
  match refreshingUser s refreshToken with
  | .error e => (.error e, s)
  | .ok user =>
    let (accessToken, s) := s.createAccessToken env user.id user.email
    (.ok (.accessTokenResponse accessToken "bearer"), s)

/-- `blacklist_token(redis_client, claims.jti, remaining_ttl_seconds(claims.expires_at))` -/
def Server.blacklist (s : Server) (claims : TokenClaims Instant) : Server :=
  let ttlSeconds := remainingTtlSeconds s.now claims.expiresAt
  { s with redis := blacklistToken s.redis s.now claims.jti ttlSeconds }

/-- `mark_token_used(redis_client, claims.jti, remaining_ttl_seconds(claims.expires_at))` -/
def Server.markUsed (s : Server) (claims : TokenClaims Instant) : Server :=
  let ttlSeconds := remainingTtlSeconds s.now claims.expiresAt
  { s with redis := markTokenUsed s.redis s.now claims.jti ttlSeconds }

def logout (credentials : Token) (refreshToken : Option Token) (s : Server) : Outcome :=
  match s.decodeAccessToken credentials with
  | none => (.error invalidAccessToken, s)
  | some accessClaims =>
    let s := s.blacklist accessClaims
    match refreshToken.bind s.decodeRefreshToken with
    | none => (.ok .noContent, s)
    | some refreshClaims => (.ok .noContent, s.blacklist refreshClaims)

def invalidVerificationToken : HttpException :=
  { statusCode := 401, detail := "Invalid or expired verification token" }

def verifyEmail (token : Token) (s : Server) : Outcome :=
  match s.decodeEmailVerificationToken token with
  | none => (.error invalidVerificationToken, s)
  | some claims =>
    match PyInt.int claims.subject with
    | none => (.error { statusCode := 401, detail := "Invalid verification token subject" }, s)
    | some userId =>
      match s.db.userById userId with
      | none => (.error userNotFound, s)
      | some user =>
        if user.isVerified then (.ok (.messageResponse "Email is already verified"), s)
        else if isTokenUsed s.redis s.now claims.jti then (.error invalidVerificationToken, s)
        else
          let s := { s with db := s.db.amendUser user.id (Database.setVerified true) }
          (.ok (.messageResponse "Email verified successfully"), s.markUsed claims)

def genericResetMessage : String :=
  "If an account exists for this email, password reset instructions have been sent"

def forgotPassword (email : String) (broker : Bool) (s : Server) : Outcome :=
  match s.db.userByEmail (env.lower email) with
  | none => (.ok (.messageResponse genericResetMessage), s)
  | some user =>
    if !user.isActive then (.ok (.messageResponse genericResetMessage), s)
    else
      let (token, s) := s.createPasswordResetToken env user.id (PyInt.str user.id)
      match s.delay broker ⟨.passwordReset, user.email, token⟩ with
      | none => (.error internalServerError, s)
      | some s => (.ok (.messageResponse genericResetMessage), s)

def invalidResetToken : HttpException :=
  { statusCode := 401, detail := "Invalid or expired password reset token" }

def samePassword : HttpException :=
  { statusCode := 400, detail := "New password must be different" }

/-- The password is checked against the stored hash when there is one. -/
def matchesStored (user : User) (password : String) : Bool :=
  user.hashedPassword.any fun hashedPassword => env.verify password hashedPassword

/-- The user that a reset with these claims may give the new password. -/
def resettingUser (s : Server) (claims : TokenClaims Instant) (newPassword : String) :
    Except HttpException User :=
  match PyInt.int claims.subject with
  | none => .error { statusCode := 401, detail := "Invalid password reset token subject" }
  | some userId =>
    match s.db.userById userId with
    | none => .error userNotFound
    | some user =>
      if !user.isActive then .error inactiveAccount
      else if matchesStored env user newPassword then .error samePassword
      else .ok user

def resetPassword (token : Token) (newPassword : NewPassword env) (s : Server) : Outcome :=
  match s.decodePasswordResetToken token with
  | none => (.error invalidResetToken, s)
  | some claims =>
    if isTokenUsed s.redis s.now claims.jti then (.error invalidResetToken, s)
    else
      match resettingUser env s claims newPassword.text with
      | .error e => (.error e, s)
      | .ok user =>
        let (hashedPassword, s) := s.hashPassword env newPassword
        let s := { s with
          db := s.db.amendUser user.id (Database.setHashedPassword hashedPassword) }
        (.ok (.messageResponse "Password reset successfully"), s.markUsed claims)

end FastApiAuth
