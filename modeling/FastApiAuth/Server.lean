import FastApiAuth.Schemas
import FastApiAuth.TokenBlacklist
import FastApiAuth.Library.PyInt
import Mathlib.Data.Rat.Floor

/-!
# The server

One state for the tables, Redis, the clock, the mails handed to the queue and
the tokens signed so far. Each signed token is kept with the id of the user row
it was made for; the code itself sees the token only.
-/

namespace FastApiAuth

set_option autoImplicit false

structure Issued where
  token : Token
  owner : Nat
  deriving DecidableEq

inductive MailKind where
  | verification
  | passwordReset
  deriving DecidableEq

structure Mail where
  kind : MailKind
  recipient : String
  token : Token
  deriving DecidableEq

/-- `draws` counts the random values drawn so far. -/
structure Server where
  now : Instant
  db : Database
  redis : Redis Instant
  issued : List Issued
  mails : List Mail
  draws : Nat

inductive Body where
  | registrationResponse (id : Nat) (email : String) (isActive isVerified : Bool)
      (message : String)
  | tokenResponse (accessToken refreshToken : Token) (tokenType : String)
  | accessTokenResponse (accessToken : Token) (tokenType : String)
  | messageResponse (message : String)
  | redirectResponse (state : String)
  | linkedProviders (accounts : List OAuthAccount)
  | userResponse (id : Nat) (email : String) (isActive isVerified : Bool) (roles : List String)
  | roleResponses (roles : List Role)
  | connected (userId : Nat)
  | noContent

abbrev Reply := Except HttpException Body

abbrev Outcome := Reply × Server

/-- The tokens an answer hands out. -/
def Body.handedOut : Body → List Token
  | .tokenResponse accessToken refreshToken _ => [accessToken, refreshToken]
  | .accessTokenResponse accessToken _ => [accessToken]
  | _ => []

def handedOut : Reply → List Token
  | .ok body => body.handedOut
  | .error _ => []

namespace Server

def signed (s : Server) : List Token := s.issued.map Issued.token

def decodeAccessToken (s : Server) (token : Token) : Option (TokenClaims Instant) :=
  decodeToken s.signed s.now token "access"

def decodeRefreshToken (s : Server) (token : Token) : Option (TokenClaims Instant) :=
  decodeToken s.signed s.now token "refresh"

def decodeEmailVerificationToken (s : Server) (token : Token) : Option (TokenClaims Instant) :=
  decodeToken s.signed s.now token "email_verification"

def decodePasswordResetToken (s : Server) (token : Token) : Option (TokenClaims Instant) :=
  decodeToken s.signed s.now token "password_reset"

/-- `create_token`, made for the user row `owner`. -/
def createToken (env : Env) (owner : Nat) (subject tokenType : String) (expiresDelta : Int)
    (s : Server) : Token × Server :=
  let token := FastApiAuth.createToken s.now (env.uuid4 s.draws) subject tokenType expiresDelta
  (token, { s with issued := s.issued ++ [⟨token, owner⟩], draws := s.draws + 1 })

def createAccessToken (env : Env) (owner : Nat) (subject : String) (s : Server) :
    Token × Server :=
  s.createToken env owner subject "access" (env.accessTokenExpireMinutes * 60)

def createRefreshToken (env : Env) (owner : Nat) (subject : String) (s : Server) :
    Token × Server :=
  s.createToken env owner subject "refresh" (env.refreshTokenExpireDays * (24 * 60 * 60))

def createEmailVerificationToken (env : Env) (owner : Nat) (subject : String) (s : Server) :
    Token × Server :=
  s.createToken env owner subject "email_verification" (30 * 60)

def createPasswordResetToken (env : Env) (owner : Nat) (subject : String) (s : Server) :
    Token × Server :=
  s.createToken env owner subject "password_reset" (15 * 60)

/-- `hash_password` -/
def hashPassword (env : Env) (password : NewPassword env) (s : Server) : String × Server :=
  (env.hash s.draws password.text, { s with draws := s.draws + 1 })

/-- `task.delay(recipient, token)`; with the broker down the call raises. -/
def delay (s : Server) (broker : Bool) (mail : Mail) : Option Server :=
  if broker then some { s with mails := s.mails ++ [mail] } else none

/-- The pair of tokens that login_user and oauth_callback answer with. -/
def answerWithTokens (env : Env) (user : User) (s : Server) : Outcome :=
  let (accessToken, s) := s.createAccessToken env user.id user.email
  let (refreshToken, s) := s.createRefreshToken env user.id user.email
  (.ok (.tokenResponse accessToken refreshToken "bearer"), s)

end Server

section CurrentUser

def invalidAccessToken : HttpException :=
  { statusCode := 401, detail := "Invalid or expired access token", headers := bearerChallenge }

def tokenRevoked : HttpException :=
  { statusCode := 401, detail := "Token has been revoked", headers := bearerChallenge }

def inactiveAccount : HttpException := { statusCode := 403, detail := "User account is inactive" }

def userNotFound : HttpException := { statusCode := 404, detail := "User not found" }

def getCurrentUser (s : Server) (credentials : Token) : Except HttpException User :=
  match s.decodeAccessToken credentials with
  | none => .error invalidAccessToken
  | some claims =>
    if isTokenBlacklisted s.redis s.now claims.jti then .error tokenRevoked
    else
      match s.db.userByEmail claims.subject with
      | none => .error { statusCode := 401, detail := "User not found" }
      | some user => if !user.isActive then .error inactiveAccount else .ok user

/-- `none` is the WebSocketException with code 1008. -/
def getCurrentUserWs (s : Server) (token : Token) : Option User :=
  match s.decodeAccessToken token with
  | none => none
  | some claims =>
    if isTokenBlacklisted s.redis s.now claims.jti then none
    else
      match s.db.userByEmail claims.subject with
      | none => none
      | some user => if !user.isActive then none else some user

def withCurrentUser (s : Server) (credentials : Token) (endpoint : User → Outcome) : Outcome :=
  match getCurrentUser s credentials with
  | .error e => (.error e, s)
  | .ok user => endpoint user

end CurrentUser

section PermissionChecker

def permissionDenied : HttpException :=
  { statusCode := 403, detail := "You do not have the required permission for this action" }

def requirePermissions (s : Server) (credentials : Token) (required : List String) :
    Except HttpException User :=
  match getCurrentUser s credentials with
  | .error e => .error e
  | .ok user =>
    if required.all fun p => p ∈ s.db.permissionNames user.id then .ok user
    else .error permissionDenied

def withPermissions (s : Server) (credentials : Token) (required : List String)
    (endpoint : User → Outcome) : Outcome :=
  match requirePermissions s credentials required with
  | .error e => (.error e, s)
  | .ok user => endpoint user

end PermissionChecker

section RateLimiter

/-- `INCR key`; `none` is the error on a value that is not an integer. -/
def Redis.incr (redis : Redis Instant) (now : Instant) (key : String) :
    Option (Int × Redis Instant) :=
  match redis.find now key with
  | none => some (1, redis.put key ⟨PyInt.str 1, none⟩)
  | some e =>
    match PyInt.int e.value with
    | none => none
    | some n => some (n + 1, redis.put key ⟨PyInt.str (n + 1), e.deadline⟩)

/-- `EXPIRE key seconds` -/
def Redis.expire (redis : Redis Instant) (now : Instant) (key : String) (seconds : Nat) :
    Redis Instant :=
  match redis.find now key with
  | none => redis
  | some e => redis.put key ⟨e.value, some (now + seconds)⟩

structure RateLimiter where
  times : Nat
  seconds : Nat
  scope : String

def tooManyRequests : HttpException :=
  { statusCode := 429, detail := "Too many requests. Please try again later." }

/-- `RateLimiter.__call__` -/
def RateLimiter.call (limiter : RateLimiter) (clientHost : String) (s : Server) :
    Except HttpException Unit × Server :=
  let key := "ratelimit:" ++ limiter.scope ++ ":" ++ clientHost
  match s.redis.incr s.now key with
  | none => (.error internalServerError, s)
  | some (current, redis) =>
    let redis := if current = 1 then redis.expire s.now key limiter.seconds else redis
    if current > limiter.times then (.error tooManyRequests, { s with redis })
    else (.ok (), { s with redis })

def RateLimiter.guard (limiter : RateLimiter) (clientHost : String) (s : Server)
    (endpoint : Server → Outcome) : Outcome :=
  match limiter.call clientHost s with
  | (.error e, s) => (.error e, s)
  | (.ok _, s) => endpoint s

end RateLimiter

end FastApiAuth
