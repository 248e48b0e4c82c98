import FastApiAuth.Jwt
import FastApiAuth.Library.ExpiringStore

/-!
# app/services/token_blacklist.py

The two families of Redis keys that make a token unusable before its expiry: the
blacklist of logged-out tokens and the marks of spent single-use tokens.
-/

namespace FastApiAuth

set_option autoImplicit false

/-- Redis, with every value as the string a client reads. -/
abbrev Redis (τ : Type) := ExpiringStore String String τ

section Keys

variable {τ : Type} [Ring τ] [LinearOrder τ]

/-- `SET key value EX ttl` -/
def Redis.set (redis : Redis τ) (now : τ) (key value : String) (ex : Int) : Redis τ :=
  redis.put key ⟨value, some (now + (ex : τ))⟩

def recordToken (keyPrefix : String) (redis : Redis τ) (now : τ) (jti : String)
    (ttlSeconds : Int) : Redis τ :=
  if ttlSeconds ≤ 0 then redis else redis.set now (keyPrefix ++ jti) "1" ttlSeconds

def isRecorded (keyPrefix : String) (redis : Redis τ) (now : τ) (jti : String) : Bool :=
  redis.contains now (keyPrefix ++ jti)

def blacklistKeyPrefix : String := "blacklist:token:"

def usedKeyPrefix : String := "used:token:"

def blacklistToken : Redis τ → τ → String → Int → Redis τ := recordToken blacklistKeyPrefix

def isTokenBlacklisted : Redis τ → τ → String → Bool := isRecorded blacklistKeyPrefix

def markTokenUsed : Redis τ → τ → String → Int → Redis τ := recordToken usedKeyPrefix

def isTokenUsed : Redis τ → τ → String → Bool := isRecorded usedKeyPrefix

end Keys

end FastApiAuth
