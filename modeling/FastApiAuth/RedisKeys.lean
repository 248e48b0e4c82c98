import FastApiAuth.Effects
import FastApiAuth.Revocation

/-!
# What an action writes to Redis

Three families of keys share one store: the counters of the rate limiter, the OAuth
states, and the records of revoked and spent tokens. `RedisStep` lists the writes of
one action in their order. From it: no record of a token is left after its expiry.
-/

namespace FastApiAuth.RedisKeys

set_option autoImplicit false

open ExpiringStore

/-- The store after some of the writes that the action `a` makes, in a state `s`. -/
inductive RedisStep (s : Server) : Action → Redis Instant → Prop where
  | same {a : Action} : RedisStep s a s.redis
  | counted {r : Request} {redis : Redis Instant} {scope clientHost : String}
      {e : Entry String Instant} :
      RedisStep s (.request r) redis →
      RedisStep s (.request r) (redis.put ("ratelimit:" ++ scope ++ ":" ++ clientHost) e)
  | minted {r : Request} {redis : Redis Instant} {state value : String} :
      RedisStep s (.request r) redis →
      RedisStep s (.request r)
        (redis.set s.now (stateKeyPrefix ++ state) value stateTtlSeconds)
  | consumed {provider state : String} {answer : Option Identity} {redis : Redis Instant} :
      RedisStep s (.request (.oauthCallback provider state answer)) redis →
      RedisStep s (.request (.oauthCallback provider state answer))
        (redis.delete (stateKeyPrefix ++ state))
  | blacklisted {credentials token : Token} {refreshToken : Option Token} {type : String}
      {claims : TokenClaims Instant} {redis : Redis Instant} :
      RedisStep s (.request (.logout credentials refreshToken)) redis →
      token = credentials ∨ refreshToken = some token →
      decodeToken s.signed s.now token type = some claims →
      RedisStep s (.request (.logout credentials refreshToken))
        (blacklistToken redis s.now claims.jti (remainingTtlSeconds s.now claims.expiresAt))
  | marked {r : Request} {token : Token} {type : String} {claims : TokenClaims Instant}
      {redis : Redis Instant} :
      RedisStep s (.request r) redis →
      r = .verifyEmail token ∨ (∃ text, r = .resetPassword token text) →
      decodeToken s.signed s.now token type = some claims →
      RedisStep s (.request r)
        (markTokenUsed redis s.now claims.jti (remainingTtlSeconds s.now claims.expiresAt))

/-- The limiter in front of a request and the host it counts. -/
def limiterOf : Action → Option (RateLimiter × String)
  | .request (.register clientHost ..) => some (registerLimiter, clientHost)
  | .request (.login clientHost ..) => some (loginLimiter, clientHost)
  | .request (.forgotPassword clientHost ..) => some (forgotPasswordLimiter, clientHost)
  | _ => none

/-- The value of a state that `a` mints. -/
inductive StateValue (s : Server) : Action → String → Prop where
  | login {provider : String} : StateValue s (.request (.oauthLogin provider)) "login"
  | link {provider : String} {credentials : Token} {user : User} :
      getCurrentUser s credentials = .ok user →
      StateValue s (.request (.oauthLink provider credentials))
        (linkPrefix ++ PyInt.str user.id)

/-- The same writes with what the request makes of its own input: which counter, which
state with which value, and whose record. -/
inductive RedisWrites (env : Env) (s : Server) : Action → Redis Instant → Prop where
  | same {a : Action} : RedisWrites env s a s.redis
  | counted {r : Request} {limiter : RateLimiter} {clientHost : String} {redis : Redis Instant}
      {e : Entry String Instant} :
      limiterOf (.request r) = some (limiter, clientHost) →
      RedisWrites env s (.request r) redis →
      RedisWrites env s (.request r)
        (redis.put ("ratelimit:" ++ limiter.scope ++ ":" ++ clientHost) e)
  | minted {r : Request} {redis : Redis Instant} {value : String} :
      RedisWrites env s (.request r) redis → StateValue s (.request r) value →
      RedisWrites env s (.request r)
        (redis.set s.now (stateKeyPrefix ++ env.tokenUrlsafe s.draws) value stateTtlSeconds)
  | consumed {provider state : String} {answer : Option Identity} {redis : Redis Instant} :
      RedisWrites env s (.request (.oauthCallback provider state answer)) redis →
      RedisWrites env s (.request (.oauthCallback provider state answer))
        (redis.delete (stateKeyPrefix ++ state))
  | blacklisted {credentials token : Token} {refreshToken : Option Token} {type : String}
      {claims : TokenClaims Instant} {redis : Redis Instant} :
      RedisWrites env s (.request (.logout credentials refreshToken)) redis →
      token = credentials ∨ refreshToken = some token →
      decodeToken s.signed s.now token type = some claims →
      RedisWrites env s (.request (.logout credentials refreshToken))
        (blacklistToken redis s.now claims.jti (remainingTtlSeconds s.now claims.expiresAt))
  | marked {r : Request} {token : Token} {type : String} {claims : TokenClaims Instant}
      {redis : Redis Instant} :
      RedisWrites env s (.request r) redis →
      r = .verifyEmail token ∨ (∃ text, r = .resetPassword token text) →
      decodeToken s.signed s.now token type = some claims →
      RedisWrites env s (.request r)
        (markTokenUsed redis s.now claims.jti (remainingTtlSeconds s.now claims.expiresAt))

section Handlers

variable {env : Env} {s s' : Server} {a : Action} {r : Request} {redis : Redis Instant}

theorem RedisWrites.redisStep (h : RedisWrites env s a redis) : RedisStep s a redis := by
  induction h with
  | same => exact .same
  | counted _ _ ih => exact .counted ih
  | minted _ _ ih => exact .minted ih
  | consumed _ ih => exact .consumed ih
  | blacklisted _ htoken hclaims ih => exact .blacklisted ih htoken hclaims
  | marked _ hr hclaims ih => exact .marked ih hr hclaims

theorem RedisWrites.expired {seconds : Nat} {limiter : RateLimiter} {clientHost : String}
    (hlimiter : limiterOf (.request r) = some (limiter, clientHost))
    (h : RedisWrites env s (.request r) redis) :
    RedisWrites env s (.request r)
      (redis.expire s.now ("ratelimit:" ++ limiter.scope ++ ":" ++ clientHost) seconds) := by
  unfold Redis.expire
  split
  · exact h
  · exact .counted hlimiter h

theorem RedisWrites.of_plain {o : Outcome} (h : Plain s o) : RedisWrites env s a o.2.redis :=
  h.redis ▸ .same

theorem call_redis (env : Env) (s : Server) {limiter : RateLimiter} {clientHost : String}
    (hlimiter : limiterOf (.request r) = some (limiter, clientHost)) :
    RedisWrites env s (.request r) (limiter.call clientHost s).2.redis := by
  have counted : ∀ current redis, s.redis.incr s.now
      ("ratelimit:" ++ limiter.scope ++ ":" ++ clientHost) = some (current, redis) →
      RedisWrites env s (.request r) redis := by
    intro current redis h
    unfold Redis.incr at h
    split at h
    · cases h
      exact .counted hlimiter .same
    · split at h <;> cases h
      exact .counted hlimiter .same
  unfold RateLimiter.call
  dsimp only
  split
  · exact .same
  · rename_i current redis hincr
    split <;> dsimp only <;> split
    · exact (counted _ _ hincr).expired hlimiter
    · exact counted _ _ hincr
    · exact (counted _ _ hincr).expired hlimiter
    · exact counted _ _ hincr

theorem writes_counted {limiter : RateLimiter} {clientHost : String}
    {answer : Except HttpException Unit}
    (hlimiter : limiterOf (.request r) = some (limiter, clientHost))
    (hcall : limiter.call clientHost s = (answer, { s with redis })) :
    RedisWrites env s (.request r) redis := by
  have hwrites := call_redis env s hlimiter
  rwa [hcall] at hwrites

/-- A refused request has written nothing but its counter. -/
theorem writes_refused (e : HttpException) (_ : e.Ordinary) :
    RedisWrites env s a ((.error e, s) : Outcome).2.redis :=
  .same

theorem logout_redis {credentials : Token} {refreshToken : Option Token} :
    RedisWrites env s (.request (.logout credentials refreshToken))
      (logout credentials refreshToken s).2.redis := by
  apply logout_rule (P := fun o => RedisWrites env s _ o.2.redis) writes_refused
  · intro claims hclaims
    exact .blacklisted .same (.inl rfl) hclaims
  · intro claims token refreshClaims hclaims htoken hrefresh
    exact .blacklisted (.blacklisted .same (.inl rfl) hclaims) (.inr htoken) hrefresh

theorem answerActive_redis (user : User) : (answerActive env user s).2.redis = s.redis :=
  answerActive_rule (P := fun o => o.2.redis = s.redis) (fun _ => rfl) fun _ => rfl

theorem callbackLogin_redis (provider : String) (identity : Identity) :
    (callbackLogin env provider identity s).2.redis = s.redis :=
  callbackLogin_rule (P := fun o => o.2.redis = s.redis) (fun _ _ => rfl)
    (fun _ user _ _ => answerActive_redis user) (fun _ user _ _ _ _ _ => answerActive_redis user)
    fun _ user _ _ _ _ _ _ _ => answerActive_redis user

theorem callbackLink_redis (provider : String) (identity : Identity) (linkingUserId : Int) :
    (callbackLink env provider identity linkingUserId s).2.redis = s.redis :=
  callbackLink_rule (P := fun o => o.2.redis = s.redis) (fun _ _ => rfl)
    (fun _ _ _ _ _ => rfl) fun _ _ _ _ _ => rfl

theorem loginUser_redis (email : String) (password : PyStr) :
    (loginUser env email password s).2.redis = s.redis :=
  loginUser_rule (P := fun o => o.2.redis = s.redis) (fun _ _ => rfl) (fun _ _ _ _ _ => rfl)
    fun _ _ _ _ _ _ _ => rfl

theorem oauthCallback_redis {provider state : String} {answer : Option Identity} :
    RedisWrites env s (.request (.oauthCallback provider state answer))
      (oauthCallback env provider state answer s).2.redis := by
  have hconsumed : RedisWrites env s (.request (.oauthCallback provider state answer))
      (s.redis.delete (stateKeyPrefix ++ state)) := .consumed .same
  apply oauthCallback_rule (P := fun o => RedisWrites env s _ o.2.redis) writes_refused
  · exact fun _ _ _ _ => hconsumed
  · intro stateValue identity linkingUserId _ _ _ _
    rw [callbackLink_redis]
    exact hconsumed
  · intro stateValue identity _ _ _ _
    rw [callbackLogin_redis]
    exact hconsumed

theorem handle_writes (r : Request) : RedisWrites env s (.request r) (handle env r s).2.redis := by
  cases r with
  | register clientHost body broker =>
    have counted : ∀ answer redis, registerLimiter.call clientHost s = (answer, { s with redis }) →
        RedisWrites env s (.request (.register clientHost body broker)) redis :=
      fun _ _ => writes_counted rfl
    apply register_rule (P := fun o => RedisWrites env s _ o.2.redis)
    · exact fun answer _ redis hcall _ => counted answer redis hcall
    · intro email password redis hcall _ _
      rw [(registerUser_plain email password broker _).redis]
      exact counted _ redis hcall
  | login clientHost body =>
    have counted : ∀ answer redis, loginLimiter.call clientHost s = (answer, { s with redis }) →
        RedisWrites env s (.request (.login clientHost body)) redis :=
      fun _ _ => writes_counted rfl
    apply login_rule (P := fun o => RedisWrites env s _ o.2.redis)
    · exact fun answer _ redis hcall _ => counted answer redis hcall
    · intro email redis hcall _
      rw [loginUser_redis]
      exact counted _ redis hcall
  | refresh refreshToken =>
    exact refreshAccessToken_rule (P := fun o => RedisWrites env s _ o.2.redis) writes_refused
      fun _ _ => .same
  | logout credentials refreshToken => exact logout_redis
  | verifyEmail token =>
    exact verifyEmail_rule (P := fun o => RedisWrites env s _ o.2.redis) writes_refused .same
      fun claims _ hclaims _ _ _ _ => .marked .same (.inl rfl) hclaims
  | forgotPassword clientHost body broker =>
    have counted : ∀ answer redis,
        forgotPasswordLimiter.call clientHost s = (answer, { s with redis }) →
        RedisWrites env s (.request (.forgotPassword clientHost body broker)) redis :=
      fun _ _ => writes_counted rfl
    apply forgot_rule (P := fun o => RedisWrites env s _ o.2.redis)
    · exact fun answer _ redis hcall _ => counted answer redis hcall
    · intro email redis hcall _
      rw [(forgotPassword_plain email broker _).redis]
      exact counted _ redis hcall
  | resetPassword token newPassword =>
    exact reset_rule (P := fun o => RedisWrites env s _ o.2.redis) writes_refused fun _ _ =>
      resetPassword_rule (P := fun o => RedisWrites env s _ o.2.redis) writes_refused
        fun claims _ hclaims _ _ => .marked .same (.inr ⟨newPassword, rfl⟩) hclaims
  | oauthLogin provider =>
    exact oauthLogin_rule (P := fun o => RedisWrites env s _ o.2.redis) writes_refused
      fun _ => .minted .same .login
  | oauthLink provider credentials =>
    exact oauthLink_rule (P := fun o => RedisWrites env s _ o.2.redis) writes_refused
      fun _ huser _ => .minted .same (.link huser)
  | oauthCallback provider state answer => exact oauthCallback_redis
  | listLinkedAccounts | unlinkProvider | readCurrentUser | updateCurrentUser
  | changeCurrentUserPassword | deactivateCurrentUser | updateUserStatus | adminDeactivateUser
  | listRoles | assignRole | revokeRole | websocket =>
    refine .of_plain (handle_plain ?_)
    trivial

theorem step_writes {l : Action × Reply} (h : Step env s l s') :
    RedisWrites env s l.1 s'.redis := by
  obtain ⟨a, reply⟩ := l
  have hs : s' = (step env s a).2 := (congrArg Prod.snd h).symm
  rw [hs]
  cases a with
  | request r => exact handle_writes r
  | cleanup => exact .same
  | wait until_ => exact .same
  | grantBySql userId roleName =>
    exact grantBySql_rule (P := fun s' => RedisWrites env s _ s'.redis) .same fun _ _ _ _ => .same

theorem step_redis {l : Action × Reply} (h : Step env s l s') : RedisStep s l.1 s'.redis :=
  (step_writes h).redisStep

end Handlers

section Disjoint

/-- Keys whose prefixes start with different characters are different. -/
theorem append_ne_append {p q : String} {c d : Char} {cs ds : List Char} (hp : p.toList = c :: cs)
    (hq : q.toList = d :: ds) (hne : c ≠ d) (x y : String) : p ++ x ≠ q ++ y := by
  intro h
  have hlist := congrArg String.toList h
  rw [String.toList_append, String.toList_append, hp, hq, List.cons_append, List.cons_append]
    at hlist
  exact hne (List.cons.inj hlist).1

/-- What the store may hold under the two keys of `token` is gone at its expiry. -/
structure RecordsDead (redis : Redis Instant) (token : Token) : Prop where
  blacklisted : redis.DeadBy (blacklistKeyPrefix ++ token.jti) (token.exp : Instant)
  marked : redis.DeadBy (usedKeyPrefix ++ token.jti) (token.exp : Instant)

/-- Tokens of the list with the jti of `token` expire with it. -/
def SameExpiry (tokens : List Token) (token : Token) : Prop :=
  ∀ t ∈ tokens, t.jti = token.jti → t.exp = token.exp

end Disjoint

section Records

variable {env : Env} {s s' : Server} {a : Action} {redis : Redis Instant} {token t : Token}
variable {type : String} {claims : TokenClaims Instant}

theorem RecordsDead.empty : RecordsDead ExpiringStore.empty token :=
  ⟨by simp [DeadBy, ExpiringStore.empty], by simp [DeadBy, ExpiringStore.empty]⟩

theorem RecordsDead.put_other {p : String} {c : Char} {cs : List Char} {e : Entry String Instant}
    (h : RecordsDead redis token) (hp : p.toList = c :: cs) (hb : c ≠ 'b') (hu : c ≠ 'u')
    (x : String) : RecordsDead (redis.put (p ++ x) e) token :=
  ⟨h.blacklisted.put_of_ne (append_ne_append rfl hp hb.symm _ _),
    h.marked.put_of_ne (append_ne_append rfl hp hu.symm _ _)⟩

theorem RecordsDead.delete_other {p : String} {c : Char} {cs : List Char}
    (h : RecordsDead redis token) (hp : p.toList = c :: cs) (hb : c ≠ 'b') (hu : c ≠ 'u')
    (x : String) : RecordsDead (redis.delete (p ++ x)) token :=
  ⟨h.blacklisted.delete_of_ne (append_ne_append rfl hp hb.symm _ _),
    h.marked.delete_of_ne (append_ne_append rfl hp hu.symm _ _)⟩

theorem recordToken_deadBy_other {p q : String} {c d : Char} {cs ds : List Char} {ttl : Int}
    {jti : String} {bound : Instant} (h : redis.DeadBy (q ++ token.jti) bound)
    (hq : q.toList = d :: ds) (hp : p.toList = c :: cs) (hne : d ≠ c) :
    (recordToken p redis s.now jti ttl).DeadBy (q ++ token.jti) bound := by
  unfold recordToken
  split
  · exact h
  · exact h.put_of_ne (append_ne_append hq hp hne _ _)

/-- The lifetime computed for a decoded token ends by the shared expiry. -/
theorem ttl_ends (hsame : SameExpiry s.signed token)
    (hclaims : decodeToken s.signed s.now t type = some claims) (hjti : claims.jti = token.jti)
    (hpos : 0 < remainingTtlSeconds s.now claims.expiresAt) :
    s.now + (remainingTtlSeconds s.now claims.expiresAt : Instant) ≤ token.exp := by
  obtain ⟨hmem, _, _, rfl⟩ := decodeToken_eq_some_iff.mp hclaims
  rw [← hsame t hmem hjti]
  exact add_remainingTtlSeconds_le hpos

theorem RedisStep.recordsDead (h : RedisStep s a redis) (hsame : SameExpiry s.signed token)
    (hdead : RecordsDead s.redis token) : RecordsDead redis token := by
  induction h with
  | same => exact hdead
  | @counted r redis scope clientHost e h ih =>
    rw [String.append_assoc, String.append_assoc]
    exact ih.put_other rfl (by decide) (by decide) _
  | minted h ih => exact ih.put_other rfl (by decide) (by decide) _
  | consumed h ih => exact ih.delete_other rfl (by decide) (by decide) _
  | blacklisted h _ hclaims ih =>
    exact ⟨Revocation.recordToken_deadBy ih.blacklisted (ttl_ends hsame hclaims),
      recordToken_deadBy_other ih.marked rfl rfl (by decide)⟩
  | marked h _ hclaims ih =>
    exact ⟨recordToken_deadBy_other ih.blacklisted rfl rfl (by decide),
      Revocation.recordToken_deadBy ih.marked (ttl_ends hsame hclaims)⟩

theorem mem_signed_step {l : Action × Reply} (h : Step env s l s') (ht : t ∈ s.signed) :
    t ∈ s'.signed := by
  obtain ⟨new, hnew, _⟩ := (step_effect h).effect
  unfold Server.signed at ht ⊢
  rw [hnew, List.map_append]
  exact List.mem_append_left _ ht

/-- In every state a deployment reaches, no record of a token is left after its expiry. -/
theorem reachable_recordsDead {s₀ : Server} {h : List ApiTransition} (h₀ : Initial s₀)
    (r : ApiRun env s₀ h s) (hsame : SameExpiry s.signed token) : RecordsDead s.redis token := by
  induction r with
  | start => exact h₀.redis ▸ .empty
  | snoc r hstep ih =>
    have hbefore := fun t ht => hsame t (mem_signed_step hstep ht)
    exact (step_redis hstep).recordsDead hbefore (ih hbefore)

/-- Logging a token out, or marking it spent, in a reached state: the record lapses before
the token does, unless the token was refused already. -/
theorem reachable_outlives_iff_refused {s₀ : Server} {h : List ApiTransition} (h₀ : Initial s₀)
    (r : ApiRun env s₀ h s) (hsame : SameExpiry s.signed token) :
    (Revocation.Outlives blacklistKeyPrefix s.signed s.redis s.now token ↔
      decodeToken s.signed s.now token token.type = none) ∧
    (Revocation.Outlives usedKeyPrefix s.signed s.redis s.now token ↔
      decodeToken s.signed s.now token token.type = none) := by
  have hdead := reachable_recordsDead h₀ r hsame
  exact ⟨Revocation.outlives_iff_refused hdead.blacklisted,
    Revocation.outlives_iff_refused hdead.marked⟩

end Records

end FastApiAuth.RedisKeys
