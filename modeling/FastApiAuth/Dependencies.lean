import FastApiAuth.Api

/-!
# Rules for the dependencies of the endpoints

What a resolved dependency has checked, and one rule for each wrapper: a property of
outcomes that holds of every refusal and of the endpoint holds of the wrapped endpoint.
-/

namespace FastApiAuth

set_option autoImplicit false

open Database

variable {env : Env} {s : Server} {user : User} {token : Token} {claims : TokenClaims Instant}
variable {P : Outcome → Prop}

section ResolvedUser

theorem getCurrentUser_ok (h : getCurrentUser s token = .ok user) :
    ∃ claims, s.decodeAccessToken token = some claims ∧
      isTokenBlacklisted s.redis s.now claims.jti = false ∧
      s.db.userByEmail claims.subject = some user ∧ user.isActive = true := by
  unfold getCurrentUser at h
  split at h
  · cases h
  rename_i claims hclaims
  split at h
  · cases h
  rename_i hblack
  split at h
  · cases h
  rename_i u hu
  split at h
  · cases h
  rename_i hactive
  cases h
  exact ⟨claims, hclaims, by simpa using hblack, hu, by simpa using hactive⟩

theorem getCurrentUser_mem (h : getCurrentUser s token = .ok user) : user ∈ s.db.users := by
  obtain ⟨_, _, _, hu, _⟩ := getCurrentUser_ok h
  exact (userByEmail_some hu).1

/-- The websocket's dependency accepts no more than the header's. -/
theorem getCurrentUserWs_some (h : getCurrentUserWs s token = some user) :
    getCurrentUser s token = .ok user := by
  unfold getCurrentUserWs at h
  unfold getCurrentUser
  split at h
  · cases h
  split at h
  · cases h
  rename_i hblack
  split at h
  · cases h
  split at h
  · cases h
  rename_i hactive
  cases h
  simp only [if_neg hblack, if_neg hactive]

theorem requirePermissions_ok {required : List String}
    (h : requirePermissions s token required = .ok user) :
    getCurrentUser s token = .ok user ∧ ∀ p ∈ required, p ∈ s.db.permissionNames user.id := by
  unfold requirePermissions at h
  split at h
  · cases h
  rename_i u hu
  split at h
  · rename_i hall
    cases h
    exact ⟨hu, by simpa using hall⟩
  · cases h

theorem refreshingUser_ok (h : refreshingUser s token = .ok user) :
    ∃ claims, s.decodeRefreshToken token = some claims ∧
      isTokenBlacklisted s.redis s.now claims.jti = false ∧
      s.db.userByEmail claims.subject = some user ∧ user.isActive = true := by
  unfold refreshingUser at h
  split at h
  · cases h
  rename_i claims hclaims
  split at h
  · cases h
  rename_i hblack
  split at h
  · cases h
  rename_i u hu
  split at h
  · cases h
  rename_i hactive
  cases h
  exact ⟨claims, hclaims, by simpa using hblack, hu, by simpa using hactive⟩

theorem resettingUser_ok {newPassword : String}
    (h : resettingUser env s claims newPassword = .ok user) :
    PyInt.int claims.subject = some (user.id : Int) ∧ user ∈ s.db.users ∧
      user.isActive = true ∧ matchesStored env user newPassword = false := by
  unfold resettingUser at h
  split at h
  · cases h
  rename_i userId hint
  split at h
  · cases h
  rename_i u hu
  obtain ⟨hmem, hid⟩ := userById_some hu
  split at h
  · cases h
  rename_i hactive
  split at h
  · cases h
  rename_i hsame
  cases h
  exact ⟨hid ▸ hint, hmem, by simpa using hactive, by simpa using hsame⟩

theorem unlinkProvider_of_guard {provider : String} {link : OAuthAccount}
    (huser : getCurrentUser s token = .ok user) (hlink : s.db.linkOf user.id provider = some link)
    (hguard : refusesUnlink user (s.db.linksOf user.id).length = false) :
    unlinkProvider provider token s =
      (.ok .noContent, { s with db := s.db.deleteLink link.id }) := by
  unfold unlinkProvider withCurrentUser
  simp only [huser, hlink, hguard]
  rfl

theorem validateEmail_ok {text email : String} (h : validateEmail env text = .ok email) :
    env.emailStr text = some email := by
  unfold validateEmail at h
  split at h
  · cases h
  · rename_i he
    cases h
    exact he

end ResolvedUser

section Refusals

/-- Neither an exception that nobody has caught nor the refusal of a limiter. -/
abbrev HttpException.Ordinary (e : HttpException) : Prop := e.statusCode ≠ 500 ∧ e.statusCode ≠ 429

theorem getCurrentUser_known {e : HttpException} (h : getCurrentUser s token = .error e) :
    e.Ordinary := by
  unfold getCurrentUser at h
  repeat' split at h
  all_goals
    cases h
    try decide

theorem requirePermissions_known {required : List String} {e : HttpException}
    (h : requirePermissions s token required = .error e) : e.Ordinary := by
  unfold requirePermissions at h
  split at h
  · rename_i e' he
    cases h
    exact getCurrentUser_known he
  split at h
  · cases h
  · cases h
    decide

theorem validateEmail_known {text : String} {e : HttpException}
    (h : validateEmail env text = .error e) : e.Ordinary := by
  unfold validateEmail at h
  split at h
  · cases h
    decide
  · cases h

theorem validateNewPassword_known {text : String} {e : HttpException}
    (h : validateNewPassword env text = .error e) : e.Ordinary := by
  unfold validateNewPassword at h
  repeat' split at h
  all_goals
    cases h
    try simp [validationError, HttpException.Ordinary]

theorem requireClient_known {provider : String} {e : HttpException}
    (h : requireClient env provider = .error e) : e.Ordinary := by
  unfold requireClient at h
  repeat' split at h
  all_goals
    cases h
    try simp [HttpException.Ordinary]

end Refusals

section WrapperRules

theorem withCurrentUser_rule {endpoint : User → Outcome}
    (refused : ∀ e, e.Ordinary → P (.error e, s))
    (runs : ∀ user, getCurrentUser s token = .ok user → P (endpoint user)) :
    P (withCurrentUser s token endpoint) := by
  unfold withCurrentUser
  split
  · rename_i e he
    exact refused e (getCurrentUser_known he)
  · rename_i user huser
    exact runs user huser

theorem withPermissions_rule {required : List String} {endpoint : User → Outcome}
    (refused : ∀ e, e.Ordinary → P (.error e, s))
    (runs : ∀ user, requirePermissions s token required = .ok user → P (endpoint user)) :
    P (withPermissions s token required endpoint) := by
  unfold withPermissions
  split
  · rename_i e he
    exact refused e (requirePermissions_known he)
  · rename_i user huser
    exact runs user huser

theorem withValid_rule {α : Type} {validated : Except HttpException α} {endpoint : α → Outcome}
    (refused : ∀ e, validated = .error e → P (.error e, s))
    (runs : ∀ x, validated = .ok x → P (endpoint x)) :
    P (withValid validated s endpoint) := by
  unfold withValid
  split
  · rename_i e
    exact refused e rfl
  · rename_i x
    exact runs x rfl

/-- The limiter touches Redis only. -/
theorem call_snd (limiter : RateLimiter) (clientHost : String) (s : Server) :
    ∃ redis, (limiter.call clientHost s).2 = { s with redis } := by
  unfold RateLimiter.call
  dsimp only
  split
  · exact ⟨s.redis, rfl⟩
  · split <;> exact ⟨_, rfl⟩

theorem guard_rule {limiter : RateLimiter} {clientHost : String} {endpoint : Server → Outcome}
    (refused : ∀ e redis, limiter.call clientHost s = (.error e, { s with redis }) →
      P (.error e, { s with redis }))
    (runs : ∀ redis, limiter.call clientHost s = (.ok (), { s with redis }) →
      P (endpoint { s with redis })) :
    P (limiter.guard clientHost s endpoint) := by
  obtain ⟨redis, hsnd⟩ := call_snd limiter clientHost s
  unfold RateLimiter.guard
  split
  · rename_i e s₁ hcall
    obtain rfl : s₁ = { s with redis } := (congrArg Prod.snd hcall).symm.trans hsnd
    exact refused e redis hcall
  · rename_i s₁ hcall
    obtain rfl : s₁ = { s with redis } := (congrArg Prod.snd hcall).symm.trans hsnd
    exact runs redis hcall

end WrapperRules

section Passed

variable {redis : Redis Instant} {limiter : RateLimiter} {clientHost : String}

theorem call_eq_of_ok (h : (limiter.call clientHost s).1 = .ok ()) :
    ∃ redis, limiter.call clientHost s = (.ok (), { s with redis }) := by
  obtain ⟨redis, hsnd⟩ := call_snd limiter clientHost s
  exact ⟨redis, Prod.ext h hsnd⟩

theorem guard_of_ok {endpoint : Server → Outcome}
    (h : limiter.call clientHost s = (.ok (), { s with redis })) :
    limiter.guard clientHost s endpoint = endpoint { s with redis } := by
  unfold RateLimiter.guard
  rw [h]

theorem withValid_of_ok {α : Type} {validated : Except HttpException α} {x : α}
    {endpoint : α → Outcome} (h : validated = .ok x) :
    withValid validated s endpoint = endpoint x := by
  unfold withValid
  rw [h]

theorem withCurrentUser_of_ok {endpoint : User → Outcome}
    (h : getCurrentUser s token = .ok user) :
    withCurrentUser s token endpoint = endpoint user := by
  unfold withCurrentUser
  rw [h]

theorem validateEmail_of_emailStr {text email : String} (h : env.emailStr text = some email) :
    validateEmail env text = .ok email := by
  unfold validateEmail
  rw [h]

end Passed

/-- The response models change nothing and hand nothing out. -/
@[simp] theorem handedOut_userResponse (s : Server) (user : User) :
    handedOut (userResponse env s user) = [] := by
  unfold userResponse
  split <;> rfl

@[simp] theorem handedOut_registrationResponse (user : User) :
    handedOut (registrationResponse env user) = [] := by
  unfold registrationResponse
  split <;> rfl

end FastApiAuth
