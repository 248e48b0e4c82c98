import FastApiAuth.RedisKeys
import FastApiAuth.RateLimiting
import FastApiAuth.OAuthFlow

/-!
# One key space for records, states and counters

Client-chosen strings end up in the keys that the handlers read, delete and increment.
Still every family of keys is written by its own requests only, and what the callback
reads under a state is what the call that minted the state has put there.
-/

namespace FastApiAuth.RedisIsolation

set_option autoImplicit false

open ExpiringStore RedisKeys Runs
open RateLimiting (limiterKey limiterKey_inj)
open OAuthFlow (callbackMode_stateValue)

/-- The token is one that the request presents to be revoked, or to be spent. -/
def PresentsToLogout : Action → Token → Prop
  | .request (.logout credentials refreshToken), token =>
    token = credentials ∨ refreshToken = some token
  | _, _ => False

def PresentsToSpend : Action → Token → Prop
  | .request (.verifyEmail t), token => token = t
  | .request (.resetPassword t _), token => token = t
  | _, _ => False

/-- Records under the prefix are written by requests that present a signed token with
their jti, and are gone only when their time is up. -/
def RecordedOnlyBy (keyPrefix : String) (presents : Action → Token → Prop) (t : ApiTransition) :
    Prop :=
  ∀ jti,
    (t.target.redis.entry (keyPrefix ++ jti) ≠ t.source.redis.entry (keyPrefix ++ jti) →
      ∃ token ∈ t.source.signed, presents t.label.1 token ∧ token.jti = jti) ∧
    (t.source.redis.contains t.source.now (keyPrefix ++ jti) = true →
      t.target.redis.contains t.target.now (keyPrefix ++ jti) = false →
      ∃ e, t.target.redis.entry (keyPrefix ++ jti) = some e ∧ ¬ Live e t.target.now)

/-- The call `t` minted `state` with this value, of which the callback makes this mode. -/
inductive Minted (t : ApiTransition) (state : String) : String → CallbackMode → Prop where
  | login {provider : String} :
      t.label = (.request (.oauthLogin provider), .ok (.redirectResponse state)) →
      Minted t state "login" .login
  | link {provider : String} {credentials : Token} {user : User} :
      t.label = (.request (.oauthLink provider credentials), .ok (.redirectResponse state)) →
      getCurrentUser t.source credentials = .ok user →
      Minted t state (linkPrefix ++ PyInt.str user.id) (.link user.id)

/-- The value was stored by the one call that minted the state, and `int()` gives the id. -/
def ReadsOwnMint (before : List ApiTransition) (state value : String) : Prop :=
  (∃ t ∈ before, Minted t state value (callbackMode value)) ∧
    ∀ t ∈ before, ∀ value' mode, Minted t state value' mode → value' = value

/-- A counter is changed by its limiter and its host only. -/
def CountedOnlyBy (t : ApiTransition) : Prop :=
  ∀ scope clientHost, ':' ∉ scope.toList →
    t.target.redis.entry (limiterKey scope clientHost) ≠
      t.source.redis.entry (limiterKey scope clientHost) →
    ∃ limiter, limiterOf t.label.1 = some (limiter, clientHost) ∧ limiter.scope = scope

section Writes

variable {env : Env} {s : Server} {a : Action} {redis : Redis Instant} {jti state : String}
variable {e : Entry String Instant}

theorem entry_recordToken_other {keyPrefix key : String} {ttl : Int}
    (hkey : key ≠ keyPrefix ++ jti) :
    (recordToken keyPrefix redis s.now jti ttl).entry key = redis.entry key := by
  unfold recordToken
  split
  · rfl
  · exact entry_put_of_ne hkey

theorem entry_recordToken_ne_none {keyPrefix key : String} {ttl : Int}
    (h : redis.entry key ≠ none) :
    (recordToken keyPrefix redis s.now jti ttl).entry key ≠ none := by
  by_cases hkey : key = keyPrefix ++ jti
  · unfold recordToken
    split
    · exact h
    · subst hkey
      simp [Redis.set]
  · rwa [entry_recordToken_other hkey]

/-- A key that is none of those the action is entitled to is left alone. -/
theorem writes_entry_eq {key : String} (h : RedisWrites env s a redis)
    (hcounter : ∀ limiter clientHost, limiterOf a = some (limiter, clientHost) →
      key ≠ limiterKey limiter.scope clientHost)
    (hstate : ∀ state, key ≠ stateKeyPrefix ++ state)
    (hblacklist : ∀ token ∈ s.signed, PresentsToLogout a token →
      key ≠ blacklistKeyPrefix ++ token.jti)
    (hused : ∀ token ∈ s.signed, PresentsToSpend a token → key ≠ usedKeyPrefix ++ token.jti) :
    redis.entry key = s.redis.entry key := by
  induction h with
  | same => rfl
  | counted hlimiter _ ih =>
    refine (entry_put_of_ne (hcounter _ _ hlimiter)).trans ?_
    exact ih hcounter hblacklist hused
  | minted _ _ ih =>
    refine (entry_put_of_ne (hstate _)).trans ?_
    exact ih hcounter hblacklist hused
  | consumed _ ih =>
    rw [entry_delete_of_ne (hstate _)]
    exact ih hcounter hblacklist hused
  | blacklisted _ htoken hclaims ih =>
    obtain ⟨hmem, _, _, rfl⟩ := decodeToken_eq_some_iff.mp hclaims
    refine (entry_recordToken_other (hblacklist _ hmem htoken)).trans ?_
    exact ih hcounter hblacklist hused
  | marked _ hr hclaims ih =>
    obtain ⟨hmem, _, _, rfl⟩ := decodeToken_eq_some_iff.mp hclaims
    refine (entry_recordToken_other (hused _ hmem ?_)).trans ?_
    · rcases hr with rfl | ⟨text, rfl⟩ <;> rfl
    · exact ih hcounter hblacklist hused

/-- Only states are ever deleted. -/
theorem writes_ne_none {key : String} (h : RedisWrites env s a redis)
    (hstate : ∀ state, key ≠ stateKeyPrefix ++ state) (hthere : s.redis.entry key ≠ none) :
    redis.entry key ≠ none := by
  have hput : ∀ (redis : Redis Instant) (k : String) (e : Entry String Instant),
      redis.entry key ≠ none → (redis.put k e).entry key ≠ none := by
    intro redis k e hbefore
    by_cases hk : key = k
    · subst hk
      simp
    · rwa [entry_put_of_ne hk]
  induction h with
  | same => exact hthere
  | counted _ _ ih => exact hput _ _ _ ih
  | minted _ _ ih => exact hput _ _ _ ih
  | consumed _ ih => rwa [entry_delete_of_ne (hstate _)]
  | blacklisted _ _ _ ih => exact entry_recordToken_ne_none ih
  | marked _ _ _ ih => exact entry_recordToken_ne_none ih

/-- What stands under a state afterwards stood there before, or is the value minted. -/
theorem writes_state_key (h : RedisWrites env s a redis)
    (he : redis.entry (stateKeyPrefix ++ state) = some e) :
    s.redis.entry (stateKeyPrefix ++ state) = some e ∨
      (state = env.tokenUrlsafe s.draws ∧ StateValue s a e.value) := by
  induction h with
  | same => exact .inl he
  | @counted r limiter clientHost redis e' hlimiter _ ih =>
    rw [String.append_assoc, String.append_assoc,
      entry_put_of_ne (append_ne_append rfl rfl (by decide) _ _)] at he
    exact ih he
  | @minted r redis value _ hvalue ih =>
    by_cases hstate : state = env.tokenUrlsafe s.draws
    · subst hstate
      rw [Redis.set, entry_put_self] at he
      cases he
      exact .inr ⟨rfl, hvalue⟩
    · rw [Redis.set, entry_put_of_ne (fun heq => hstate ((String.append_right_inj _).mp heq))] at he
      exact ih he
  | @consumed provider state' answer redis _ ih =>
    by_cases hstate : stateKeyPrefix ++ state = stateKeyPrefix ++ state'
    · rw [hstate] at he
      simp [ExpiringStore.delete] at he
    · rw [entry_delete_of_ne hstate] at he
      exact ih he
  | blacklisted _ _ _ ih =>
    refine ih ((entry_recordToken_other ?_).symm.trans he)
    exact append_ne_append rfl rfl (by decide) _ _
  | marked _ _ _ ih =>
    refine ih ((entry_recordToken_other ?_).symm.trans he)
    exact append_ne_append rfl rfl (by decide) _ _

end Writes

section Steps

variable {env : Env} {s s' s₀ : Server} {l : Action × Reply} {jti state : String}
variable {e : Entry String Instant} {h : List ApiTransition} {t : ApiTransition}

/-- One of the two families of records, told by the first letter of its prefix. -/
theorem recordedOnlyBy_of {keyPrefix : String} {presents : Action → Token → Prop} {c : Char}
    {cs : List Char} (hfirst : keyPrefix.toList = c :: cs) (hr : c ≠ 'r') (ho : c ≠ 'o')
    (hblacklist : ∀ jti token, PresentsToLogout l.1 token →
      keyPrefix ++ jti = blacklistKeyPrefix ++ token.jti → presents l.1 token ∧ token.jti = jti)
    (hused : ∀ jti token, PresentsToSpend l.1 token →
      keyPrefix ++ jti = usedKeyPrefix ++ token.jti → presents l.1 token ∧ token.jti = jti)
    (hstep : Step env s l s') : RecordedOnlyBy keyPrefix presents ⟨s, l, s'⟩ := by
  intro jti
  have hstate : ∀ state, keyPrefix ++ jti ≠ stateKeyPrefix ++ state := fun state =>
    append_ne_append hfirst rfl ho _ _
  constructor
  · intro hchanged
    by_contra hnone
    refine hchanged (writes_entry_eq (step_writes hstep) ?_ hstate ?_ ?_)
    · intro limiter clientHost _
      rw [limiterKey, String.append_assoc, String.append_assoc]
      exact append_ne_append hfirst rfl hr _ _
    · exact fun token hmem hp hkey => hnone ⟨token, hmem, hblacklist jti token hp hkey⟩
    · exact fun token hmem hp hkey => hnone ⟨token, hmem, hused jti token hp hkey⟩
  · intro hthere hgone
    obtain ⟨e, he, _⟩ := contains_iff.mp hthere
    have hkept := writes_ne_none (step_writes hstep) hstate (Option.ne_none_iff_exists'.mpr ⟨e, he⟩)
    obtain ⟨e', he'⟩ := Option.ne_none_iff_exists'.mp hkept
    refine ⟨e', he', fun hlive => ?_⟩
    rw [contains_iff.mpr ⟨e', he', hlive⟩] at hgone
    cases hgone

theorem blacklist_step (hstep : Step env s l s') :
    RecordedOnlyBy blacklistKeyPrefix PresentsToLogout ⟨s, l, s'⟩ :=
  recordedOnlyBy_of rfl (by decide) (by decide)
    (fun _ _ hp hkey => ⟨hp, ((String.append_right_inj _).mp hkey).symm⟩)
    (fun _ _ _ hkey => absurd hkey (append_ne_append rfl rfl (by decide) _ _)) hstep

theorem used_step (hstep : Step env s l s') :
    RecordedOnlyBy usedKeyPrefix PresentsToSpend ⟨s, l, s'⟩ :=
  recordedOnlyBy_of rfl (by decide) (by decide)
    (fun _ _ _ hkey => absurd hkey (append_ne_append rfl rfl (by decide) _ _))
    (fun _ _ hp hkey => ⟨hp, ((String.append_right_inj _).mp hkey).symm⟩) hstep

theorem limiterOf_scope {a : Action} {limiter : RateLimiter} {clientHost : String}
    (h : limiterOf a = some (limiter, clientHost)) : ':' ∉ limiter.scope.toList := by
  unfold limiterOf at h
  split at h <;> cases h <;> decide

theorem counted_step (hstep : Step env s l s') : CountedOnlyBy ⟨s, l, s'⟩ := by
  intro scope clientHost hscope hchanged
  by_contra hnone
  have hother : ∀ (p x : String) {c : Char} {cs : List Char}, p.toList = c :: cs → c ≠ 'r' →
      limiterKey scope clientHost ≠ p ++ x := by
    intro p x c cs hp hc
    rw [limiterKey, String.append_assoc, String.append_assoc]
    exact append_ne_append rfl hp hc.symm _ _
  refine hchanged (writes_entry_eq (step_writes hstep) ?_ ?_ ?_ ?_)
  · intro limiter clientHost' hlimiter hkey
    obtain ⟨rfl, rfl⟩ := Prod.mk.inj (limiterKey_inj hscope (limiterOf_scope hlimiter) hkey)
    exact hnone ⟨limiter, hlimiter, rfl⟩
  · exact fun state => hother _ _ rfl (by decide)
  · exact fun token _ _ => hother _ _ rfl (by decide)
  · exact fun token _ _ => hother _ _ rfl (by decide)

/-- A call that starts the flow is refused, or keeps the value under a drawn state. -/
inductive StartCase (env : Env) (value : String) (s : Server) : Outcome → Prop where
  | refused {e : HttpException} : StartCase env value s (.error e, s)
  | redirected : StartCase env value s (redirectWithState env value s)

theorem start_case (env : Env) {action : Action} {value : String}
    (hvalue : StateValue s action value) :
    StartCase env value s (step env s action) := by
  cases hvalue with
  | @login provider =>
    change StartCase env "login" s (oauthLogin env provider s)
    unfold oauthLogin
    split
    · exact .refused
    · exact .redirected
  | @link provider credentials user huser =>
    change StartCase env (linkPrefix ++ PyInt.str user.id) s (oauthLink env provider credentials s)
    unfold oauthLink withCurrentUser
    rw [huser]
    dsimp only
    split
    · exact .refused
    · exact .redirected

theorem StartCase.redirect {value : String} {outcome : Outcome}
    (hcase : StartCase env value s outcome) (hreply : outcome.1 = .ok (.redirectResponse state)) :
    state = env.tokenUrlsafe s.draws ∧ outcome.2.draws = s.draws + 1 := by
  cases hcase with
  | refused => cases hreply
  | redirected =>
    cases hreply
    exact ⟨rfl, rfl⟩

theorem Minted.stateValue {value : String} {mode : CallbackMode} (hm : Minted t state value mode) :
    StateValue t.source t.label.1 value ∧ t.label.2 = .ok (.redirectResponse state) ∧
      callbackMode value = mode := by
  cases hm with
  | login hlabel =>
    rw [hlabel]
    exact ⟨.login, rfl, callbackMode_stateValue .login⟩
  | @link provider credentials user hlabel huser =>
    rw [hlabel]
    exact ⟨.link huser, rfl, callbackMode_stateValue (.link user.id)⟩

theorem Minted.value_unique {value value' : String} {mode mode' : CallbackMode}
    (hm : Minted t state value mode) (hm' : Minted t state value' mode') : value = value' := by
  cases hm with
  | login hlabel =>
    cases hm' with
    | login _ => rfl
    | link hlabel' _ => cases hlabel.symm.trans hlabel'
  | link hlabel huser =>
    cases hm' with
    | login hlabel' => cases hlabel.symm.trans hlabel'
    | link hlabel' huser' =>
      cases hlabel.symm.trans hlabel'
      cases huser.symm.trans huser'
      rfl

theorem minted_draws {value : String} {mode : CallbackMode}
    (hstep : Step env t.source t.label t.target) (hm : Minted t state value mode) :
    state = env.tokenUrlsafe t.source.draws ∧ t.target.draws = t.source.draws + 1 := by
  obtain ⟨hvalue, hreply, _⟩ := hm.stateValue
  have hcase := start_case env hvalue
  rw [show step env t.source t.label.1 = (t.label.2, t.target) from hstep] at hcase
  exact hcase.redirect hreply

theorem step_state_key (hstep : Step env s l s')
    (he : s'.redis.entry (stateKeyPrefix ++ state) = some e) :
    s.redis.entry (stateKeyPrefix ++ state) = some e ∨
      Minted ⟨s, l, s'⟩ state e.value (callbackMode e.value) := by
  rcases writes_state_key (step_writes hstep) he with hold | ⟨rfl, hvalue⟩
  · exact .inl hold
  obtain ⟨action, reply⟩ := l
  have hcase := start_case env hvalue
  rw [show step env s action = (reply, s') from hstep] at hcase
  generalize hvalue' : e.value = value at hvalue hcase ⊢
  generalize houtcome : (reply, s') = outcome at hcase
  cases hcase with
  | refused =>
    cases houtcome
    exact .inl he
  | redirected =>
    cases houtcome
    refine .inr ?_
    cases hvalue with
    | login => exact .login rfl
    | @link provider credentials user huser =>
      rw [show callbackMode (linkPrefix ++ PyInt.str user.id) = .link user.id from
        callbackMode_stateValue (.link user.id)]
      exact .link rfl huser

/-- A handler draws on from the state it was given. -/
def DrawsOn (s : Server) (o : Outcome) : Prop := s.draws ≤ o.2.draws

theorem draws_same {o : Outcome} (h : o.2.draws = s.draws) : DrawsOn s o := h.ge

theorem draws_more {o : Outcome} (n : Nat) (h : o.2.draws = s.draws + n) : DrawsOn s o :=
  (Nat.le_add_right s.draws n).trans_eq h.symm

theorem draws_refused (e : HttpException) (_ : e.Ordinary) : DrawsOn s (.error e, s) :=
  draws_same rfl

theorem answerActive_draws {s₁ : Server} (user : User) (h : s₁.draws = s.draws) :
    DrawsOn s (answerActive env user s₁) :=
  answerActive_rule (fun _ => draws_same h) fun _ => draws_more 2 (congrArg (· + 2) h)

theorem callbackLogin_draws (provider : String) (identity : Identity) {redis : Redis Instant} :
    DrawsOn s (callbackLogin env provider identity { s with redis }) :=
  callbackLogin_rule (fun _ _ => draws_same rfl) (fun _ user _ _ => answerActive_draws user rfl)
    (fun _ user _ _ _ _ _ => answerActive_draws user rfl)
    fun _ user _ _ _ _ _ _ _ => answerActive_draws user rfl

theorem callbackLink_draws (provider : String) (identity : Identity) (linkingUserId : Int)
    {redis : Redis Instant} :
    DrawsOn s (callbackLink env provider identity linkingUserId { s with redis }) :=
  callbackLink_rule (fun _ _ => draws_same rfl) (fun _ _ _ _ _ => draws_more 2 rfl)
    fun _ _ _ _ _ => draws_more 2 rfl

theorem handle_draws (r : Request) : DrawsOn s (handle env r s) := by
  cases r with
  | register clientHost body broker =>
    apply register_rule
    · exact fun _ _ _ _ _ => draws_same rfl
    intro email password redis _ _ _
    apply registerUser_rule
    · exact fun _ _ => draws_same rfl
    · exact fun _ _ _ _ => ⟨fun _ => draws_more 2 rfl, fun _ => draws_more 2 rfl⟩
  | login clientHost body =>
    apply login_rule
    · exact fun _ _ _ _ _ => draws_same rfl
    intro email redis _ _
    apply loginUser_rule
    · exact fun _ _ => draws_same rfl
    · exact fun _ _ _ _ _ => draws_same rfl
    · exact fun _ _ _ _ _ _ _ => draws_more 2 rfl
  | refresh refreshToken =>
    exact refreshAccessToken_rule draws_refused fun _ _ => draws_more 1 rfl
  | logout credentials refreshToken =>
    exact logout_rule draws_refused (fun _ _ => draws_same rfl) fun _ _ _ _ _ _ => draws_same rfl
  | verifyEmail token =>
    exact verifyEmail_rule draws_refused (draws_same rfl) fun _ _ _ _ _ _ _ => draws_same rfl
  | forgotPassword clientHost body broker =>
    apply forgot_rule
    · exact fun _ _ _ _ _ => draws_same rfl
    intro email redis _ _
    apply forgotPassword_rule
    · exact draws_same rfl
    · exact fun _ _ _ => ⟨fun _ => draws_more 1 rfl, fun _ => draws_more 1 rfl⟩
  | resetPassword token newPassword =>
    exact reset_rule draws_refused fun _ _ =>
      resetPassword_rule draws_refused fun _ _ _ _ _ => draws_more 1 rfl
  | oauthLogin provider => exact oauthLogin_rule draws_refused fun _ => draws_more 1 rfl
  | oauthLink provider credentials =>
    exact oauthLink_rule draws_refused fun _ _ _ => draws_more 1 rfl
  | oauthCallback provider state answer =>
    exact oauthCallback_rule draws_refused (fun _ _ _ _ => draws_same rfl)
      (fun _ identity linkingUserId _ _ _ _ => callbackLink_draws provider identity linkingUserId)
      fun _ identity _ _ _ _ => callbackLogin_draws provider identity
  | listLinkedAccounts credentials | readCurrentUser credentials =>
    exact withCurrentUser_rule draws_refused fun _ _ => draws_same rfl
  | unlinkProvider provider credentials =>
    exact unlinkProvider_rule draws_refused fun _ _ _ _ _ => draws_same rfl
  | updateCurrentUser credentials email =>
    exact updateCurrentUser_rule draws_refused (fun _ _ _ => draws_same rfl)
      fun _ _ _ _ _ _ _ _ => draws_same rfl
  | changeCurrentUserPassword credentials passwordData =>
    exact changeCurrentUserPassword_rule draws_refused (fun _ _ _ _ _ _ _ => draws_same rfl)
      fun _ _ _ _ _ _ _ => draws_more 1 rfl
  | deactivateCurrentUser credentials =>
    exact deactivateCurrentUser_rule draws_refused fun _ _ => draws_same rfl
  | updateUserStatus credentials userId payload =>
    exact withPermissions_rule draws_refused fun _ _ =>
      updateUserStatus_rule draws_refused fun _ _ => draws_same rfl
  | adminDeactivateUser credentials userId =>
    exact withPermissions_rule draws_refused fun _ _ =>
      adminDeactivateUser_rule draws_refused fun _ _ => draws_same rfl
  | listRoles credentials =>
    exact withPermissions_rule draws_refused fun _ _ => draws_same rfl
  | assignRole credentials userId role pushed =>
    exact withPermissions_rule draws_refused fun _ _ =>
      assignRole_rule draws_refused (fun _ _ _ _ _ => draws_same rfl)
        fun _ _ _ _ _ => ⟨fun _ => draws_same rfl, fun _ => draws_same rfl⟩
  | revokeRole credentials userId roleName =>
    exact withPermissions_rule draws_refused fun _ _ =>
      revokeRole_rule draws_refused fun _ _ => draws_same rfl
  | websocket token =>
    exact websocketEndpoint_rule draws_refused fun _ _ => draws_same rfl

theorem step_draws_le (hstep : Step env s l s') : s.draws ≤ s'.draws := by
  obtain ⟨a, reply⟩ := l
  rw [show s' = (step env s a).2 from (congrArg Prod.snd hstep).symm]
  cases a with
  | request r => exact handle_draws r
  | cleanup => exact le_rfl
  | wait until_ => exact le_rfl
  | grantBySql userId roleName =>
    exact grantBySql_rule (P := fun s' => s.draws ≤ s'.draws) le_rfl fun _ _ _ _ => le_rfl

theorem run_minted_draws {value : String} {mode : CallbackMode} (r : ApiRun env s₀ h s)
    (ht : t ∈ h) (hm : Minted t state value mode) : t.source.draws < s.draws := by
  induction r with
  | start => cases ht
  | @snoc h s s' l r hstep ih =>
    rcases List.mem_append.mp ht with ht | ht
    · exact (ih ht).trans_le (step_draws_le hstep)
    · obtain rfl := List.mem_singleton.mp ht
      have hdraws := (minted_draws hstep hm).2
      change s'.draws = s.draws + 1 at hdraws
      change s.draws < s'.draws
      omega

/-- Every value under a state is that of the call that minted it. -/
theorem run_states (hfresh : Function.Injective env.tokenUrlsafe) (h₀ : Initial s₀)
    (r : ApiRun env s₀ h s) (he : s.redis.entry (stateKeyPrefix ++ state) = some e) :
    ReadsOwnMint h state e.value := by
  induction r generalizing e with
  | start =>
    rw [h₀.redis] at he
    cases he
  | @snoc h s s' l r hstep ih =>
    -- a state that was drawn before is not drawn again
    have hunique : ∀ t ∈ h, ∀ value mode value' mode', Minted t state value mode →
        ¬ Minted ⟨s, l, s'⟩ state value' mode' := by
      intro t ht value mode value' mode' hm hm'
      obtain ⟨_, _, _, hstep'⟩ := r.step_of_mem ht
      have hdraw := (minted_draws hstep' hm).1.symm.trans (minted_draws hstep hm').1
      have hlt := run_minted_draws r ht hm
      have heq : t.source.draws = s.draws := hfresh hdraw
      omega
    rcases step_state_key hstep he with hold | hnew
    · obtain ⟨⟨t, ht, hm⟩, hown⟩ := ih hold
      refine ⟨⟨t, List.mem_append_left _ ht, hm⟩, fun t' ht' value' mode' hm' => ?_⟩
      rcases List.mem_append.mp ht' with ht' | ht'
      · exact hown t' ht' value' mode' hm'
      · rw [List.mem_singleton.mp ht'] at hm'
        exact absurd hm' (hunique t ht _ _ _ _ hm)
    · refine ⟨⟨_, List.mem_append_right _ (List.mem_singleton_self _), hnew⟩, ?_⟩
      intro t' ht' value' mode' hm'
      rcases List.mem_append.mp ht' with ht' | ht'
      · exact absurd hnew (hunique t' ht' _ _ _ _ hm')
      · rw [List.mem_singleton.mp ht'] at hm'
        exact hm'.value_unique hnew

end Steps

/-- In every run the records of tokens, the OAuth states and the counters keep to
themselves, whatever strings the clients choose. -/
theorem key_space_isolated (env : Env) (hfresh : Function.Injective env.tokenUrlsafe)
    {s₀ s : Server} {h : List ApiTransition} (h₀ : Initial s₀) (r : ApiRun env s₀ h s) :
    (∀ t ∈ h, RecordedOnlyBy blacklistKeyPrefix PresentsToLogout t ∧
      RecordedOnlyBy usedKeyPrefix PresentsToSpend t) ∧
    (∀ before t, before ++ [t] <+: h → ∀ provider state answer value,
      t.label.1 = .request (.oauthCallback provider state answer) →
      t.source.redis.get t.source.now (stateKeyPrefix ++ state) = some value →
      ReadsOwnMint before state value) ∧
    ∀ t ∈ h, CountedOnlyBy t := by
  refine ⟨fun t ht => ?_, ?_, fun t ht => ?_⟩
  · obtain ⟨_, _, _, hstep⟩ := r.step_of_mem ht
    exact ⟨blacklist_step hstep, used_step hstep⟩
  · intro before t hp provider state answer value _ hread
    obtain ⟨rb, _⟩ := r.of_prefix_snoc hp
    obtain ⟨e, hfind, rfl⟩ := Option.map_eq_some_iff.mp hread
    exact run_states hfresh h₀ rb (find_eq_some_iff.mp hfind).1
  · obtain ⟨_, _, _, hstep⟩ := r.step_of_mem ht
    exact counted_step hstep

/-- A host and a state that look like parts of other keys. -/
def strangeStrings : List Action :=
  [.request (.oauthLogin "github"),
    .request (.login "login:state0" ⟨"a@b.c", "secret"⟩),
    .request (.oauthCallback "github" "token:uuid0" none),
    .request (.oauthCallback "github" "state0" (some ⟨"17", some "a@b.c"⟩))]

theorem key_space_isolated_sample :
    (∀ t ∈ trace (step asciiEnv) (freshServer 0) strangeStrings,
      RecordedOnlyBy blacklistKeyPrefix PresentsToLogout t ∧
      RecordedOnlyBy usedKeyPrefix PresentsToSpend t) ∧
    (∀ before t, before ++ [t] <+: trace (step asciiEnv) (freshServer 0) strangeStrings →
      ∀ provider state answer value,
      t.label.1 = .request (.oauthCallback provider state answer) →
      t.source.redis.get t.source.now (stateKeyPrefix ++ state) = some value →
      ReadsOwnMint before state value) ∧
    ∀ t ∈ trace (step asciiEnv) (freshServer 0) strangeStrings, CountedOnlyBy t :=
  key_space_isolated asciiEnv OAuthFlow.asciiEnv_tokenUrlsafe_injective (freshServer_initial 0)
    (run_trace _ _ _)

end FastApiAuth.RedisIsolation
