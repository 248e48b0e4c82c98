import FastApiAuth.TokenStamps

/-!
# How long a session lasts

A session begins with a password or with a provider's word, and goes on by refreshing.
The refresh token stays the one of the sign-in, so the last access token of a session
ends a bounded time after it. A logout ends a session at once, but for the last second
of its tokens.
-/

namespace FastApiAuth.Sessions

set_option autoImplicit false

open Database TokenBinding TokenStamps RedisKeys RedisIsolation Runs ExpiringStore

def accessLifetime (env : Env) : Int := lifetime env "access"

def refreshLifetime (env : Env) : Int := lifetime env "refresh"

/-- The transition signs `user` in, on a password or on the word of a provider, and answers
with the tokens. -/
inductive BeginsSession (env : Env) (t : ApiTransition) (user : User) : Prop where
  | password {clientHost email hashedPassword : String} {body : LoginRequest} :
      t.label.1 = .request (.login clientHost body) → AnswersFor t.label.2 user →
      env.emailStr body.email = some email →
      t.source.db.userByEmail (env.lower email) = some user →
      user.hashedPassword = some hashedPassword →
      verifyPassword env body.password hashedPassword = some true →
      user.isVerified = true → user.isActive = true → BeginsSession env t user
  | provider {provider state : String} {identity : Identity} :
      t.label.1 = .request (.oauthCallback provider state (some identity)) →
      AnswersFor t.label.2 user →
      SignsIn env t.source (.oauthCallback provider state (some identity)) user →
      BeginsSession env t user

/-- The transition renews the access token of a session of `user`. -/
def Renews (t : ApiTransition) (refreshToken : Token) (user : User) : Prop :=
  t.label.1 = .request (.refresh refreshToken) ∧ refreshingUser t.source refreshToken = .ok user

section Origins

variable {env : Env} {s s' s₀ : Server} {l : Action × Reply} {i : Issued}
variable {h : List ApiTransition}

/-- Nothing is signed, or the pair of tokens that the reply hands out. -/
def AnswersOrSignsNone (s : Server) (o : Outcome) : Prop :=
  o.2.issued = s.issued ∨ ∃ user new, AnswersFor o.1 user ∧ o.2.issued = s.issued ++ new ∧
    SessionTokens user new

theorem answers_with_tokens {s₁ : Server} (user : User) (hissued : s₁.issued = s.issued) :
    AnswersOrSignsNone s (s₁.answerWithTokens env user) := by
  obtain ⟨_, _, new, hnew, hsession⟩ := answerWithTokens_session env user s₁
  refine Or.inr ⟨user, new, answerWithTokens_answersFor env user s₁, ?_, hsession⟩
  rw [hnew, hissued]

theorem answers_active {s₁ : Server} (user : User) (hissued : s₁.issued = s.issued) :
    AnswersOrSignsNone s (answerActive env user s₁) :=
  answerActive_rule (fun _ => Or.inl hissued) fun _ => answers_with_tokens user hissued

theorem login_answers (env : Env) (s : Server) (clientHost : String) (body : LoginRequest) :
    AnswersOrSignsNone s (handle env (.login clientHost body) s) := by
  apply login_rule
  · exact fun _ _ _ _ _ => Or.inl rfl
  intro email redis _ _
  apply loginUser_rule
  · exact fun _ _ => Or.inl rfl
  · exact fun _ _ _ _ _ => Or.inl rfl
  · exact fun user _ _ _ _ _ _ => answers_with_tokens user rfl

theorem oauthCallback_answers (env : Env) (s : Server) (provider state : String)
    (answer : Option Identity) :
    AnswersOrSignsNone s (oauthCallback env provider state answer s) := by
  apply oauthCallback_rule
  · exact fun _ _ => Or.inl rfl
  · exact fun _ _ _ _ => Or.inl rfl
  · intro _ identity linkingUserId _ _ _ _
    exact callbackLink_rule (fun _ _ => Or.inl rfl)
      (fun _ user _ _ _ => answers_with_tokens user rfl)
      fun user _ _ _ _ => answers_with_tokens user rfl
  · intro _ identity _ _ _ _
    exact callbackLogin_rule (fun _ _ => Or.inl rfl) (fun _ user _ _ => answers_active user rfl)
      (fun _ user _ _ _ _ _ => answers_active user rfl)
      fun _ user _ _ _ _ _ _ _ => answers_active user rfl

/-- The reply names whom a token that it signed names. -/
theorem AnswersOrSignsNone.reply {user : User} {o : Outcome} (h : AnswersOrSignsNone s o)
    (hi : i ∈ o.2.issued) (hnew : i ∉ s.issued) (hsub : i.token.sub = user.email) :
    AnswersFor o.1 user := by
  rcases h with hnone | ⟨signed, new, ⟨accessToken, refreshToken, hreply, haccess, hrefresh⟩,
    hissued, hsession⟩
  · rw [hnone] at hi
    exact absurd hi hnew
  rw [hissued] at hi
  rcases List.mem_append.mp hi with hold | hi
  · exact absurd hold hnew
  have hsame : signed.email = user.email := (hsession i hi).2.1.symm.trans hsub
  exact ⟨accessToken, refreshToken, hreply, haccess.trans hsame, hrefresh.trans hsame⟩

/-- The body names a verified, active account and carries its password. -/
def Credentials (env : Env) (s : Server) (body : LoginRequest) : Prop :=
  ∃ email user hashedPassword, env.emailStr body.email = some email ∧
    s.db.userByEmail (env.lower email) = some user ∧
    user.hashedPassword = some hashedPassword ∧
    verifyPassword env body.password hashedPassword = some true ∧
    user.isVerified = true ∧ user.isActive = true

theorem login_password {clientHost : String} {body : LoginRequest}
    (hsigns : (handle env (.login clientHost body) s).2.issued ≠ s.issued) :
    Credentials env s body := by
  revert hsigns
  apply login_rule (P := fun o => o.2.issued ≠ s.issued → Credentials env s body)
  · exact fun _ _ _ _ _ hsigns => absurd rfl hsigns
  intro email redis _ hemail
  apply loginUser_rule (P := fun o => o.2.issued ≠ s.issued → Credentials env s body)
  · exact fun _ _ hsigns => absurd rfl hsigns
  · exact fun _ _ _ _ _ hsigns => absurd rfl hsigns
  · intro user hashedPassword huser hstored hpassword hverified hactive _
    exact ⟨email, user, hashedPassword, hemail, huser, hstored, hpassword, hverified, hactive⟩

theorem refresh_signs_access {refreshToken : Token}
    (hi : i ∈ (handle env (.refresh refreshToken) s).2.issued) (hnew : i ∉ s.issued) :
    i.token.type = "access" := by
  revert hi
  apply refreshAccessToken_rule (P := fun o => i ∈ o.2.issued → i.token.type = "access")
  · exact fun _ _ hi => absurd hi hnew
  · intro user _ hi
    rcases List.mem_append.mp hi with hi | hi
    · exact absurd hi hnew
    · rw [List.mem_singleton.mp hi]
      rfl

theorem step_begins_or_renews (hstep : Step env s l s') (hi : i ∈ s'.issued) (hnew : i ∉ s.issued)
    (hsession : IsSession i) : ∃ user, i.token.sub = user.email ∧
      (BeginsSession env ⟨s, l, s'⟩ user ∨
        i.token.type = "access" ∧ ∃ refreshToken, Renews ⟨s, l, s'⟩ refreshToken user) := by
  rcases step_signs hstep hi hsession with hold | ⟨r, user, hrequest, hsigns, _, hsub⟩
  · exact absurd hold hnew
  obtain ⟨a, reply⟩ := l
  obtain rfl : a = .request r := hrequest
  have hhandle : handle env r s = (reply, s') := hstep
  have hissued : (handle env r s).2.issued ≠ s.issued := by
    intro hsame
    rw [hhandle] at hsame
    rw [show s'.issued = s.issued from hsame] at hi
    exact hnew hi
  have hissuedBy : i ∈ (handle env r s).2.issued := by
    rw [hhandle]
    exact hi
  -- the callback that signs the token answers with it
  have answers : ∀ {provider state answer}, r = .oauthCallback provider state answer →
      AnswersFor reply user := by
    rintro provider state answer rfl
    have hanswers := (oauthCallback_answers env s provider state answer).reply
      hissuedBy hnew hsub
    rwa [show oauthCallback env provider state answer s = (reply, s') from hhandle] at hanswers
  cases hsigns with
  | @login clientHost email body user hemail huser _ _ =>
    have hanswers := (login_answers env s clientHost body).reply hissuedBy hnew hsub
    rw [hhandle] at hanswers
    obtain ⟨email', user', hashedPassword, hemail', huser', hrest⟩ := login_password hissued
    cases hemail.symm.trans hemail'
    cases huser.symm.trans huser'
    obtain ⟨hstored, hpassword, hverified, hactive⟩ := hrest
    exact ⟨user, hsub, Or.inl
      (.password rfl hanswers hemail huser hstored hpassword hverified hactive)⟩
  | @refreshed refreshToken user huser =>
    exact ⟨user, hsub, Or.inr ⟨refresh_signs_access hissuedBy hnew, refreshToken, rfl, huser⟩⟩
  | linkMode hclient hstored hmode hown huser =>
    exact ⟨user, hsub, Or.inl
      (.provider rfl (answers rfl) (.linkMode hclient hstored hmode hown huser))⟩
  | linked hclient hstored hmode hlink huser hactive =>
    exact ⟨user, hsub, Or.inl
      (.provider rfl (answers rfl) (.linked hclient hstored hmode hlink huser hactive))⟩
  | byEmail hcall hemail huser hactive =>
    exact ⟨user, hsub, Or.inl
      (.provider rfl (answers rfl) (.byEmail hcall hemail huser hactive))⟩
  | signedUp hcall hemail hfree =>
    exact ⟨_, hsub, Or.inl (.provider rfl (answers rfl) (.signedUp hcall hemail hfree))⟩

/-- A session token of a run, with the transition that signed it. -/
theorem run_begins_or_renews (h₀ : Initial s₀) (r : ApiRun env s₀ h s) (hi : i ∈ s.issued)
    (hsession : IsSession i) : ∃ before t, before ++ [t] <+: h ∧
      (∃ draw, Stamp env t.source.now draw i.token) ∧ ∃ user, i.token.sub = user.email ∧
      (BeginsSession env t user ∨
        i.token.type = "access" ∧ ∃ refreshToken, Renews t refreshToken user) := by
  induction r with
  | start =>
    rw [h₀.issued] at hi
    cases hi
  | @snoc h s s' l r hstep ih =>
    by_cases hold : i ∈ s.issued
    · obtain ⟨before, t, hp, hrest⟩ := ih hold
      exact ⟨before, t, hp.trans (List.prefix_append _ _), hrest⟩
    · refine ⟨h, ⟨s, l, s'⟩, List.prefix_refl _, ?_, step_begins_or_renews hstep hi hold hsession⟩
      obtain ⟨_, new, hissued, _, hstamped⟩ := step_signsOn hstep
      rw [hissued] at hi
      rcases List.mem_append.mp hi with hi | hi
      · exact absurd hi hold
      · obtain ⟨p, hp, rfl⟩ := List.mem_map.mp hi
        exact ⟨p.2, (hstamped p hp).2.2⟩

/-- A stamped token is accepted for its lifetime and less than a second more. -/
theorem stamp_lasts {now later : Instant} {draw : Nat} {token : Token}
    (hstamp : Stamp env now draw token) (hunexpired : Unexpired later token) :
    later < now + (lifetime env token.type : Instant) + 1 := by
  have hlt := unexpired_iff_lt.mp hunexpired
  have hexp : token.exp = ⌊now + (lifetime env token.type : Instant)⌋ := by
    rw [hstamp]
    rfl
  have hfloor : (token.exp : Instant) ≤ now + (lifetime env token.type : Instant) := by
    rw [hexp]
    exact Int.floor_le _
  linarith

/-- What a refresh token that is still accepted says of its session. -/
theorem refreshing_begins (h₀ : Initial s₀) (r : ApiRun env s₀ h s) {refreshToken : Token}
    {user : User} (huser : refreshingUser s refreshToken = .ok user) :
    ∃ t ∈ h, ∃ holder, BeginsSession env t holder ∧ holder.email = user.email ∧
      s.now < t.source.now + (refreshLifetime env : Instant) + 1 := by
  obtain ⟨claims, hclaims, _, hrow, _⟩ := refreshingUser_ok huser
  obtain ⟨hsigned, hunexpired, htype, rfl⟩ := decodeToken_eq_some_iff.mp hclaims
  obtain ⟨i, hi, rfl⟩ := List.mem_map.mp hsigned
  obtain ⟨before, t, hp, ⟨draw, hstamp⟩, holder, hsub, horigin⟩ :=
    run_begins_or_renews h₀ r hi (Or.inr htype)
  have ht : t ∈ h := hp.subset (by simp)
  rcases horigin with hbegins | ⟨haccess, _⟩
  · refine ⟨t, ht, holder, hbegins, ?_, ?_⟩
    · rw [← hsub]
      exact (userByEmail_some hrow).2.symm
    · have hlasts := stamp_lasts hstamp hunexpired
      rwa [htype] at hlasts
  · rw [haccess] at htype
    exact absurd htype (by decide)

end Origins

/-- Whoever get_current_user accepts in a run has signed in as the holder of the same
address, with a password or through a provider, no longer ago than one refresh token and
one access token last, and two seconds. -/
theorem sessions_are_bounded (env : Env) {s₀ s : Server} {h : List ApiTransition}
    (h₀ : Initial s₀) (r : ApiRun env s₀ h s) {credentials : Token} {user : User}
    (huser : getCurrentUser s credentials = .ok user) :
    ∃ t ∈ h, ∃ holder, BeginsSession env t holder ∧ holder.email = user.email ∧
      s.now < t.source.now + (refreshLifetime env : Instant) +
        (accessLifetime env : Instant) + 2 := by
  obtain ⟨claims, hclaims, _, hrow, _⟩ := getCurrentUser_ok huser
  obtain ⟨hsigned, hunexpired, htype, rfl⟩ := decodeToken_eq_some_iff.mp hclaims
  obtain ⟨i, hi, rfl⟩ := List.mem_map.mp hsigned
  obtain ⟨before, t, hp, ⟨draw, hstamp⟩, holder, hsub, horigin⟩ :=
    run_begins_or_renews h₀ r hi (Or.inl htype)
  have hemail : holder.email = user.email := by
    rw [← hsub]
    exact (userByEmail_some hrow).2.symm
  have hlasts : s.now < t.source.now + (accessLifetime env : Instant) + 1 := by
    have hlasts := stamp_lasts hstamp hunexpired
    rwa [htype] at hlasts
  have hrefresh : (0 : Instant) ≤ (refreshLifetime env : Instant) := by
    have hdays : (0 : Int) ≤ env.refreshTokenExpireDays * (24 * 60 * 60) := by omega
    exact Int.cast_nonneg hdays
  rcases horigin with hbegins | ⟨_, refreshToken, hrequest, hrefreshing⟩
  · refine ⟨t, hp.subset (by simp), holder, hbegins, hemail, ?_⟩
    linarith
  · obtain ⟨rb, _⟩ := r.of_prefix_snoc hp
    obtain ⟨t', ht', holder', hbegins, hsame, hbefore⟩ := refreshing_begins h₀ rb hrefreshing
    refine ⟨t', hp.subset (List.mem_append_left _ ht'), holder', hbegins, hsame.trans hemail, ?_⟩
    linarith

theorem exists_resolved {resolved : Except HttpException User} {email : String}
    (h : resolved.toOption.map User.email = some email) :
    ∃ user, resolved = .ok user ∧ user.email = email := by
  cases resolved with
  | error e => cases h
  | ok user => exact ⟨user, rfl, Option.some.inj h⟩

/-- The session of `oneSession`, before its logout: the login began it. -/
theorem sessions_are_bounded_sample :
    ∃ t ∈ trace (step asciiEnv) (freshServer 0) (oneSession.take 3), ∃ holder,
      BeginsSession asciiEnv t holder ∧ holder.email = "a@b.c" ∧
      (0 : Instant) < t.source.now + (refreshLifetime asciiEnv : Instant) +
        (accessLifetime asciiEnv : Instant) + 2 := by
  obtain ⟨user, huser, hemail⟩ := exists_resolved (show (getCurrentUser
      (exec (step asciiEnv) (freshServer 0) (oneSession.take 3))
      ⟨"a@b.c", "access", "uuid2", 0, 1800⟩).toOption.map User.email = some "a@b.c" by
    decide +kernel)
  have hnow : (exec (step asciiEnv) (freshServer 0) (oneSession.take 3)).now = 0 := by
    decide +kernel
  have hbounded := sessions_are_bounded asciiEnv (freshServer_initial 0) (run_trace _ _ _) huser
  rwa [hnow, hemail] at hbounded

section Logout

variable {env : Env} {s s' s₀ : Server} {l : Action × Reply} {h : List ApiTransition}
variable {token : Token} {redis : Redis Instant}

/-- The record of a revoked token lasts until the last second of the token. -/
def Revoked (token : Token) (s : Server) : Prop :=
  s.redis.HeldPast (blacklistKeyPrefix ++ token.jti) ((token.exp : Instant) - 1) ∨
    (token.exp : Instant) - 1 < s.now

theorem lt_add_remainingTtlSeconds (now expiresAt : Instant) :
    expiresAt - 1 < now + (remainingTtlSeconds now expiresAt : Instant) := by
  have hmax : truncate (expiresAt - now) ≤ remainingTtlSeconds now expiresAt := le_max_left _ _
  have hlt : expiresAt - now - 1 < (truncate (expiresAt - now) : Instant) := by
    unfold truncate
    split
    · exact Int.sub_one_lt_floor _
    · have hceil := Int.le_ceil (expiresAt - now)
      linarith
  have hcast : (truncate (expiresAt - now) : Instant) ≤
      (remainingTtlSeconds now expiresAt : Instant) := by
    exact_mod_cast hmax
  linarith

theorem Revoked.isTokenBlacklisted (hrevoked : Revoked token s)
    (hle : s.now ≤ (token.exp : Instant) - 1) :
    isTokenBlacklisted s.redis s.now token.jti = true := by
  rcases hrevoked with hheld | hlast
  · exact hheld.contains hle
  · exact absurd hlast (not_lt.mpr hle)

/-- Recording the token again keeps its record, and so does any other record. -/
theorem blacklistToken_heldPast {other : Token} (hsame : other.jti = token.jti →
      other.exp = token.exp)
    (hheld : redis.HeldPast (blacklistKeyPrefix ++ token.jti) ((token.exp : Instant) - 1)) :
    (blacklistToken redis s.now other.jti
        (remainingTtlSeconds s.now (other.exp : Instant))).HeldPast
      (blacklistKeyPrefix ++ token.jti) ((token.exp : Instant) - 1) := by
  unfold blacklistToken recordToken
  split
  · exact hheld
  by_cases hjti : other.jti = token.jti
  · rw [hjti, ← hsame hjti]
    apply HeldPast.put
    intro d hd
    cases hd
    exact lt_add_remainingTtlSeconds _ _
  · apply hheld.put_of_ne
    intro hkey
    exact hjti ((String.append_right_inj _).mp hkey).symm

theorem blacklist_revokes (s : Server) :
    Revoked token (s.blacklist ⟨token.sub, token.jti, token.exp⟩) := by
  have hlasts := lt_add_remainingTtlSeconds s.now (token.exp : Instant)
  unfold Server.blacklist blacklistToken recordToken
  dsimp only
  split
  · rename_i hnone
    right
    have hcast : (remainingTtlSeconds s.now (token.exp : Instant) : Instant) ≤ 0 := by
      exact_mod_cast hnone
    change (token.exp : Instant) - 1 < s.now
    linarith
  · left
    apply HeldPast.put
    intro d hd
    cases hd
    exact hlasts

/-- Whatever an action writes to Redis, the record of the token is kept. -/
theorem redisStep_heldPast {a : Action} (hwrites : RedisStep s a redis)
    (hsame : SameExpiry s.signed token)
    (hheld : s.redis.HeldPast (blacklistKeyPrefix ++ token.jti) ((token.exp : Instant) - 1)) :
    redis.HeldPast (blacklistKeyPrefix ++ token.jti) ((token.exp : Instant) - 1) := by
  induction hwrites with
  | same => exact hheld
  | counted _ ih =>
    rw [String.append_assoc, String.append_assoc]
    exact ih.put_of_ne (append_ne_append rfl rfl (by decide) _ _)
  | minted _ ih => exact ih.put_of_ne (append_ne_append rfl rfl (by decide) _ _)
  | consumed _ ih => exact ih.delete_of_ne (append_ne_append rfl rfl (by decide) _ _)
  | @blacklisted _ other _ _ _ _ _ _ hclaims ih =>
    obtain ⟨hsigned, _, _, rfl⟩ := decodeToken_eq_some_iff.mp hclaims
    exact blacklistToken_heldPast (hsame other hsigned) ih
  | marked _ _ _ ih =>
    unfold markTokenUsed recordToken
    split
    · exact ih
    · exact ih.put_of_ne (append_ne_append rfl rfl (by decide) _ _)

theorem step_revoked (hstep : Step env s l s') (hsame : SameExpiry s.signed token)
    (hrevoked : Revoked token s) : Revoked token s' := by
  rcases hrevoked with hheld | hlast
  · exact Or.inl (redisStep_heldPast (step_redis hstep) hsame hheld)
  · exact Or.inr (hlast.trans_le (step_effect hstep).now)

theorem logout_revokes {credentials : Token} {refreshToken : Option Token}
    (hstep : Step env s (.request (.logout credentials refreshToken), .ok .noContent) s')
    (hsame : ∀ token ∈ s.signed, ∀ other ∈ s.signed, token.jti = other.jti → token = other) :
    (credentials ∈ s.signed ∧ Revoked credentials s') ∧
    ∀ token, refreshToken = some token → s.decodeRefreshToken token ≠ none → Revoked token s' := by
  have hlogout : logout credentials refreshToken s = (.ok .noContent, s') := hstep
  unfold logout at hlogout
  split at hlogout
  · cases hlogout
  rename_i accessClaims haccess
  obtain ⟨hsigned, _, _, rfl⟩ := decodeToken_eq_some_iff.mp haccess
  have hfirst : Revoked credentials (s.blacklist ⟨_, _, _⟩) := blacklist_revokes s
  dsimp only at hlogout
  split at hlogout
  · rename_i hnone
    cases hlogout
    refine ⟨⟨hsigned, hfirst⟩, ?_⟩
    intro token htoken hdecoded
    rw [htoken] at hnone
    exact absurd hnone hdecoded
  · rename_i refreshClaims hrefresh
    cases hlogout
    obtain ⟨token, rfl, hclaims⟩ := Option.bind_eq_some_iff.mp hrefresh
    obtain ⟨hrefreshing, _, _, rfl⟩ := decodeToken_eq_some_iff.mp hclaims
    refine ⟨⟨hsigned, ?_⟩, ?_⟩
    · rcases hfirst with hheld | hlast
      · refine Or.inl (blacklistToken_heldPast ?_ hheld)
        intro hjti
        rw [hsame token hrefreshing credentials hsigned hjti]
      · exact Or.inr hlast
    · intro other hother _
      cases hother
      exact blacklist_revokes _

theorem logout_answers {credentials : Token} {refreshToken : Option Token}
    (hdecoded : (s.decodeAccessToken credentials).isSome = true) :
    (logout credentials refreshToken s).1 = .ok .noContent := by
  unfold logout
  split
  · rename_i hnone
    rw [hnone] at hdecoded
    cases hdecoded
  · dsimp only
    split <;> rfl

theorem sameExpiry_of_signed (huuid : Function.Injective env.uuid4) (h₀ : Initial s₀)
    (r : ApiRun env s₀ h s) (hsigned : token ∈ s.signed) : SameExpiry s.signed token := by
  intro other hother hjti
  rw [signed_eq_of_jti huuid h₀ r hother hsigned hjti]

/-- A token revoked by one transition of a run is revoked in every later state. -/
theorem run_revoked (huuid : Function.Injective env.uuid4) (h₀ : Initial s₀)
    (r : ApiRun env s₀ h s) {before : List ApiTransition} {t : ApiTransition}
    (hp : before ++ [t] <+: h) (hsigned : token ∈ t.source.signed)
    (hrevoked : Revoked token t.target) : Revoked token s := by
  have hkept : token ∈ s.signed ∧ Revoked token s := by
    obtain ⟨rb, hstep⟩ := r.of_prefix_snoc hp
    apply Run.persist (P := fun s => token ∈ s.signed ∧ Revoked token s) r ?_ hp (rb.snoc hstep)
    · exact ⟨mem_signed_step hstep hsigned, hrevoked⟩
    · intro t' ht' hbefore
      obtain ⟨_, _, r', hstep'⟩ := r.step_of_mem ht'
      exact ⟨mem_signed_step hstep' hbefore.1,
        step_revoked hstep' (sameExpiry_of_signed huuid h₀ r' hbefore.1) hbefore.2⟩
  exact hkept.2

theorem revoked_getCurrentUser (hrevoked : Revoked token s)
    (hle : s.now ≤ (token.exp : Instant) - 1) (user : User) :
    getCurrentUser s token ≠ .ok user := by
  intro huser
  obtain ⟨claims, hclaims, hclear, _⟩ := getCurrentUser_ok huser
  obtain ⟨_, _, _, rfl⟩ := decodeToken_eq_some_iff.mp hclaims
  rw [hrevoked.isTokenBlacklisted hle] at hclear
  cases hclear

theorem revoked_refreshingUser (hrevoked : Revoked token s)
    (hle : s.now ≤ (token.exp : Instant) - 1) (user : User) :
    refreshingUser s token ≠ .ok user := by
  intro huser
  obtain ⟨claims, hclaims, hclear, _⟩ := refreshingUser_ok huser
  obtain ⟨_, _, _, rfl⟩ := decodeToken_eq_some_iff.mp hclaims
  rw [hrevoked.isTokenBlacklisted hle] at hclear
  cases hclear

end Logout

/-- After a logout, whatever requests come, no endpoint takes the access token and the
refresh token is not exchanged, until the last second of the token in question. -/
theorem logout_is_final (env : Env) (huuid : Function.Injective env.uuid4) {s₀ s : Server}
    {h : List ApiTransition} (h₀ : Initial s₀) (r : ApiRun env s₀ h s) {t : ApiTransition}
    (ht : t ∈ h) {credentials : Token} {refreshToken : Option Token}
    (hlogout : t.label = (.request (.logout credentials refreshToken), .ok .noContent)) :
    (s.now ≤ (credentials.exp : Instant) - 1 → ∀ user, getCurrentUser s credentials ≠ .ok user) ∧
    ∀ token, refreshToken = some token → t.source.decodeRefreshToken token ≠ none →
      s.now ≤ (token.exp : Instant) - 1 → ∀ user, refreshingUser s token ≠ .ok user := by
  obtain ⟨before, hp, rb, hstep⟩ := r.step_of_mem ht
  rw [hlogout] at hstep
  obtain ⟨⟨hsigned, haccess⟩, hrefresh⟩ := logout_revokes hstep
    fun token htoken other hother => signed_eq_of_jti huuid h₀ rb htoken hother
  constructor
  · apply revoked_getCurrentUser
    exact run_revoked huuid h₀ r hp hsigned haccess
  · intro token htoken hdecoded
    obtain ⟨claims, hclaims⟩ := Option.ne_none_iff_exists'.mp hdecoded
    apply revoked_refreshingUser
    exact run_revoked huuid h₀ r hp (decodeToken_eq_some_iff.mp hclaims).1
      (hrefresh token htoken hdecoded)

def sessionLogout : Action :=
  .request (.logout ⟨"a@b.c", "access", "uuid2", 0, 1800⟩
    (some ⟨"a@b.c", "refresh", "uuid3", 0, 604800⟩))

/-- The logout of `oneSession`, while half an hour is not over. -/
theorem logout_is_final_sample :
    ¬ ∃ user, getCurrentUser (step asciiEnv
        (exec (step asciiEnv) (freshServer 0) (oneSession.take 3)) sessionLogout).2
      ⟨"a@b.c", "access", "uuid2", 0, 1800⟩ = .ok user := by
  rintro ⟨user, huser⟩
  have hreply : (step asciiEnv (exec (step asciiEnv) (freshServer 0) (oneSession.take 3))
      sessionLogout).1 = .ok .noContent := by
    apply logout_answers
    decide +kernel
  have hnow : (step asciiEnv (exec (step asciiEnv) (freshServer 0) (oneSession.take 3))
      sessionLogout).2.now ≤ ((1800 : Int) : Instant) - 1 := by
    decide +kernel
  have r := (run_trace (step asciiEnv) (freshServer 0) (oneSession.take 3)).snoc
    (show Step asciiEnv _ (sessionLogout, .ok .noContent) _ from Prod.ext hreply rfl)
  exact (logout_is_final asciiEnv asciiEnv_uuid4_injective (freshServer_initial 0) r
    (List.mem_append_right _ (List.mem_singleton_self _)) rfl).1 hnow user huser

end FastApiAuth.Sessions
