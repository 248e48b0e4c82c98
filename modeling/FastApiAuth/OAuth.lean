import FastApiAuth.Server

/-!
# app/api/oauth.py

The provider's answer to the callback is part of the request: the identity it
asserts, or nothing when the exchange with it raises.
-/

namespace FastApiAuth

set_option autoImplicit false

def supportedProviders : List String := ["google", "github", "microsoft"]

def stateTtlSeconds : Int := 600

def stateKeyPrefix : String := "oauth:state:"

def linkPrefix : String := "link:"

variable (env : Env)

def requireClient (provider : String) : Except HttpException Unit :=
  if provider ∉ supportedProviders then
    .error { statusCode := 404, detail := "Unknown OAuth provider" }
  else if !env.registered provider then
    .error { statusCode := 503, detail := "OAuth provider '" ++ provider ++ "' is not configured" }
  else .ok ()

/-- Draw a state, keep `value` under it for ten minutes and send it along. -/
def redirectWithState (value : String) (s : Server) : Outcome :=
  let state := env.tokenUrlsafe s.draws
  (.ok (.redirectResponse state), { s with
    redis := s.redis.set s.now (stateKeyPrefix ++ state) value stateTtlSeconds
    draws := s.draws + 1 })

def oauthLogin (provider : String) (s : Server) : Outcome :=
  match requireClient env provider with
  | .error e => (.error e, s)
  | .ok _ => redirectWithState env "login" s

def oauthLink (provider : String) (credentials : Token) (s : Server) : Outcome :=
  withCurrentUser s credentials fun currentUser =>
    match requireClient env provider with
    | .error e => (.error e, s)
    | .ok _ => redirectWithState env (linkPrefix ++ PyInt.str currentUser.id) s

/-- What the callback makes of the stored state value. -/
inductive CallbackMode where
  | login
  | link (userId : Int)
  | malformed
  deriving DecidableEq

/-- `malformed` is the ValueError of `int(state_value.split(":", 1)[1])`. -/
def callbackMode (stateValue : String) : CallbackMode :=
  if linkPrefix.toList.isPrefixOf stateValue.toList then
    match PyInt.int (String.ofList (stateValue.toList.drop linkPrefix.toList.length)) with
    | some userId => .link userId
    | none => .malformed
  else .login

/-- The account and the e-mail address the provider vouches for. -/
structure Identity where
  providerUserId : String
  email : Option String

def linkedToAnother : HttpException :=
  { statusCode := 409, detail := "This provider account is already linked to another user" }

/-- Link mode: `linking_user_id` is set. -/
def callbackLink (provider : String) (identity : Identity) (linkingUserId : Int) (s : Server) :
    Outcome :=
  match s.db.linkByIdentity provider identity.providerUserId with
  | some existing =>
    if (existing.userId : Int) ≠ linkingUserId then (.error linkedToAnother, s)
    else
      match s.db.userById linkingUserId with
      | none => (.error userNotFound, s)
      | some user => s.answerWithTokens env user
  | none =>
    match s.db.userById linkingUserId with
    | none => (.error userNotFound, s)
    | some user =>
      match s.db.insertLink user.id provider identity.providerUserId identity.email s.now with
      | none => (.error internalServerError, s)
      | some db => { s with db }.answerWithTokens env user

/-- The gate at the end of login mode. -/
def answerActive (user : User) (s : Server) : Outcome :=
  if !user.isActive then (.error inactiveAccount, s) else s.answerWithTokens env user

/-- Login mode, no link yet: the new link of the user found or created by e-mail. -/
def attachIdentity (provider : String) (identity : Identity) (user : User) (s : Server) :
    Outcome :=
  match s.db.insertLink user.id provider identity.providerUserId identity.email s.now with
  | none => (.error internalServerError, s)
  | some db => answerActive env user { s with db }

def callbackLogin (provider : String) (identity : Identity) (s : Server) : Outcome :=
  match s.db.linkByIdentity provider identity.providerUserId with
  | some existing =>
    match s.db.userById existing.userId with
    | none => (.error inactiveAccount, s)
    | some user => answerActive env user s
  | none =>
    match identity.email with
    | none =>
      (.error { statusCode := 400, detail := provider ++ " did not provide an email address" }, s)
    | some email =>
      match s.db.userByEmail email with
      | some user => attachIdentity env provider identity user s
      | none =>
        match s.db.insertUser email none true true s.now [] with
        | none => (.error internalServerError, s)
        | some (user, db) => attachIdentity env provider identity user { s with db }

def oauthCallback (provider state : String) (answer : Option Identity) (s : Server) : Outcome :=
  match requireClient env provider with
  | .error e => (.error e, s)
  | .ok _ =>
    match s.redis.get s.now (stateKeyPrefix ++ state) with
    | none => (.error { statusCode := 400, detail := "Invalid or expired OAuth state" }, s)
    | some stateValue =>
      let s := { s with redis := s.redis.delete (stateKeyPrefix ++ state) }
      match answer with
      | none => (.error internalServerError, s)
      | some identity =>
        match callbackMode stateValue with
        | .malformed => (.error internalServerError, s)
        | .link linkingUserId => callbackLink env provider identity linkingUserId s
        | .login => callbackLogin env provider identity s

def listLinkedAccounts (credentials : Token) (s : Server) : Outcome :=
  withCurrentUser s credentials fun currentUser =>
    (.ok (.linkedProviders (s.db.linksOf currentUser.id)), s)

def providerNotLinked : HttpException :=
  { statusCode := 404, detail := "Provider is not linked" }

def onlySignInMethod : HttpException :=
  { statusCode := 400
    detail := "Cannot unlink the only sign-in method. " ++
      "Set a password first via the password reset flow." }

/-- The guard of unlink_provider on the number of linked accounts. -/
def refusesUnlink (currentUser : User) (remainingLinks : Nat) : Bool :=
  currentUser.hashedPassword.isNone && remainingLinks ≤ 1

def unlinkProvider (provider : String) (credentials : Token) (s : Server) : Outcome :=
  withCurrentUser s credentials fun currentUser =>
    match s.db.linkOf currentUser.id provider with
    | none => (.error providerNotLinked, s)
    | some link =>
      let remainingLinks := (s.db.linksOf currentUser.id).length
      if refusesUnlink currentUser remainingLinks then (.error onlySignInMethod, s)
      else (.ok .noContent, { s with db := s.db.deleteLink link.id })

end FastApiAuth
